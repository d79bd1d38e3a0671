import Satoidc.Proofs.CallbackEffects

/-! When the wallet callback answers. The schema of its query bounds lengths only, and of
the three decoders of `verify` only the last one's exception is caught. -/

namespace Satoidc.Proofs.CallbackAnswers
open Foundation LnurlCallback CallbackEffects

/-- What `verify_digest` does with a digest that fits the curve. It reads the digest as a
number first, which an empty one is not. -/
structure ChecksDigests (curve : Secp256k1) : Prop where
  fitting : ∀ vk sig digest, digest ≠ [] → digest.length ≤ 32 →
    curve.verifyDigest vk sig digest = .ok true ∨ curve.verifyDigest vk sig digest = .error .badSignatureError
  empty : ∀ vk sig, ∃ message, curve.verifyDigest vk sig [] = .error (.valueError message)

/-- The texts are hexadecimal, the k1 not of blanks only, and the key is the encoding of a
point. -/
def Decodes (curve : Secp256k1) (k1 key sig : String) : Prop :=
  ∃ digest point signature vk, bytesFromHex k1 = .ok digest ∧ digest ≠ [] ∧ bytesFromHex key = .ok point ∧
    bytesFromHex sig = .ok signature ∧ curve.fromString point = .ok vk

/-- The callback gets to the signature check. -/
def Checked (env : Settings) (now : Instant) (db : Db) (query : LnurlAuthCallbackIn) : Prop :=
  ∃ challenge, consume env now db query = .consumed query challenge ∧
    some challenge.action = query.action.map LnurlAction.value

/-- The callback has ended with a response. -/
def Answered : Phase → Prop
  | .finished _ exit => ∃ response, exit.outcome = .ok response ∧ (response.status = "OK" ∨ response.status = "ERROR")
  | _ => False

theorem hexBytes_length {text : List Char} {bytes : List UInt8} (decoded : hexBytes text = some bytes) :
    2 * bytes.length ≤ text.length := by
  induction text using hexBytes.induct generalizing bytes with
  | case1 => cases decoded; exact Nat.le_refl 0
  | case2 c space => rw [hexBytes, if_pos space] at decoded; cases decoded; exact Nat.zero_le _
  | case3 c visible => rw [hexBytes, if_neg visible] at decoded; cases decoded
  | case4 c d rest space ih =>
    rw [hexBytes, if_pos space] at decoded
    have shorter := ih decoded
    rw [List.length_cons]
    omega
  | case5 c d rest visible ih =>
    simp only [hexBytes, if_neg visible, Option.bind_eq_bind, Option.bind_eq_some_iff, Option.some.injEq] at decoded
    obtain ⟨high, -, low, -, tail, read, rfl⟩ := decoded
    have shorter := ih read
    simp only [List.length_cons]
    omega

theorem bytesFromHex_length {text : String} {bytes : List UInt8} (decoded : bytesFromHex text = .ok bytes) :
    2 * bytes.length ≤ text.length := by
  unfold bytesFromHex at decoded
  split at decoded
  next read => cases decoded; exact hexBytes_length read
  next => cases decoded

section verify
variable {curve : Secp256k1} {k1 key sig : String}

theorem bind_ok {α β : Type} {result : Except PyError α} {later : α → Except PyError β} {value : β}
    (returned : result >>= later = .ok value) : ∃ middle, result = .ok middle ∧ later middle = .ok value := by
  cases result with
  | error raised => cases returned
  | ok middle => exact ⟨middle, rfl, returned⟩

theorem verify_decodes (checks : ChecksDigests curve) {verified : Bool} (returned : verify curve k1 key sig = .ok verified) :
    Decodes curve k1 key sig := by
  obtain ⟨digest, k1Hex, returned⟩ := bind_ok returned
  obtain ⟨point, keyHex, returned⟩ := bind_ok returned
  obtain ⟨signature, sigHex, returned⟩ := bind_ok returned
  obtain ⟨vk, decoded, checked⟩ := bind_ok returned
  refine ⟨digest, point, signature, vk, k1Hex, ?_, keyHex, sigHex, decoded⟩
  rintro rfl
  obtain ⟨message, raised⟩ := checks.empty vk signature
  rw [raised] at checked
  cases checked

theorem verify_returns (checks : ChecksDigests curve) (short : k1.length ≤ 64) (decodes : Decodes curve k1 key sig) :
    ∃ verified, verify curve k1 key sig = .ok verified := by
  obtain ⟨digest, point, signature, vk, k1Hex, filled, keyHex, sigHex, decoded⟩ := decodes
  have fits := bytesFromHex_length k1Hex
  simp only [verify, k1Hex, keyHex, sigHex, decoded, Bind.bind, Except.bind]
  rcases checks.fitting vk signature digest filled (by omega) with valid | bad
  · exact ⟨true, by rw [valid]⟩
  · exact ⟨false, by rw [bad]⟩

theorem verify_malformed {digest : List UInt8} {raised : PyError} (read : bytesFromHex k1 = .ok digest)
    (unread : bytesFromHex key = .error raised) : verify curve k1 key sig = .error raised := by
  simp only [verify, read, unread, Bind.bind, Except.bind]

theorem verify_undecoded {digest point signature : List UInt8} {raised : PyError} (k1Hex : bytesFromHex k1 = .ok digest)
    (keyHex : bytesFromHex key = .ok point) (sigHex : bytesFromHex sig = .ok signature)
    (undecoded : curve.fromString point = .error raised) : verify curve k1 key sig = .error raised := by
  simp only [verify, k1Hex, keyHex, sigHex, undecoded, Bind.bind, Except.bind]

end verify

section answers
variable {curve : Secp256k1} {uuid : UserId} {db : Db} {query : LnurlAuthCallbackIn}
    {challenge : LnurlAuthChallenge} {user : User}

theorem answered_stays {result : Db × Phase} (answered : Answered result.2) :
    LnurlCallback.next curve uuid result.1 result.2 = result := by
  obtain ⟨after, phase⟩ := result
  cases phase with
  | finished => rfl
  | _ => cases answered

theorem commit_answered {users : Option Users} (stored : users ≠ none) : Answered (commit db users challenge).2 := by
  cases users with
  | none => exact absurd rfl stored
  | some table => exact ⟨_, rfl, .inl rfl⟩

/-- A wallet that nobody holds can be registered under a new id. -/
theorem register_stored (fresh : ∀ user ∈ db.users.rows, user.id ≠ uuid) (unknown : db.userByPubkey query.key = none) :
    (Table.store (db.users.rows ++ [walletUser uuid query.key]) : Option Users) ≠ none := by
  refine mt Table.store_none.mp (not_not.mpr ?_)
  have valid := db.users.valid
  refine ⟨Keyed.append_singleton.mpr ⟨valid.id, fresh⟩, UniqueColumn.append_singleton.mpr ⟨valid.lnurlPubkey, ?_⟩,
    UniqueColumn.append_singleton.mpr ⟨valid.email, ?_⟩, UniqueColumn.append_singleton.mpr ⟨valid.login, ?_⟩⟩
  · intro key held other member same
    cases held
    exact (by simpa using List.find?_eq_none.mp unknown other member : other.lnurlPubkey ≠ some query.key) same
  all_goals
    intro name held
    cases held

/-- A wallet can be linked to an account when no other account holds it. -/
theorem link_stored (own : ∀ holder, db.userByPubkey query.key = some holder → holder.id = user.id) :
    (Table.store (setPubkey user.id query.key db.users.rows) : Option Users) ≠ none := by
  refine mt Table.store_none.mp (not_not.mpr ?_)
  have valid := db.users.valid
  have free : ∀ row ∈ db.users.rows, row.lnurlPubkey = some query.key → row.id = user.id := by
    intro row member held
    cases found : db.userByPubkey query.key with
    | none => exact absurd (decide_eq_true held) (List.find?_eq_none.mp found row member)
    | some holder =>
      have shown : holder.lnurlPubkey = some query.key := by simpa using List.find?_some found
      rw [valid.lnurlPubkey.unique member (List.mem_of_find?_eq_some found) held shown]
      exact own holder found
  exact ⟨valid.id.update fun _ => rfl, valid.lnurlPubkey.assign valid.id (fun _ => rfl) free,
    valid.email.update fun _ _ _ => .inl rfl, valid.login.update fun _ _ _ => .inl rfl⟩

theorem linking_answered (own : ∀ holder, db.userByPubkey query.key = some holder → holder.id = user.id) :
    Answered (LnurlCallback.next curve uuid db (.linking query challenge user)).2 := by
  simp only [LnurlCallback.next]
  split
  next => exact commit_answered (Option.some_ne_none _)
  next => exact commit_answered (link_stored own)

theorem resolved_answered (fresh : ∀ user ∈ db.users.rows, user.id ≠ uuid) {result : Db × Phase}
    (stepped : LnurlCallback.next curve uuid db (.resolved query challenge (db.userByPubkey query.key)) = result) :
    Answered (LnurlCallback.next curve uuid result.1 result.2).2 := by
  have ended : Answered result.2 → Answered (LnurlCallback.next curve uuid result.1 result.2).2 := by
    intro answered
    rw [answered_stays answered]
    exact answered
  cases action : query.action with
  | none =>
    simp only [LnurlCallback.next, action] at stepped
    subst stepped
    exact ⟨_, rfl, .inr rfl⟩
  | some kind =>
    cases kind with
    | auth =>
      simp only [LnurlCallback.next, action] at stepped
      subst stepped
      exact ⟨_, rfl, .inl rfl⟩
    | register =>
      cases holder : db.userByPubkey query.key with
      | none =>
        simp only [LnurlCallback.next, action, holder] at stepped
        subst stepped
        exact ended (commit_answered (register_stored fresh holder))
      | some user =>
        simp only [LnurlCallback.next, action, holder] at stepped
        subst stepped
        exact ended (commit_answered (Option.some_ne_none _))
    | login =>
      cases holder : db.userByPubkey query.key with
      | none =>
        simp only [LnurlCallback.next, action, holder] at stepped
        subst stepped
        exact ⟨_, rfl, .inr rfl⟩
      | some user =>
        simp only [LnurlCallback.next, action, holder] at stepped
        subst stepped
        exact ended (commit_answered (Option.some_ne_none _))
    | link =>
      simp only [LnurlCallback.next, action] at stepped
      cases recorded : challenge.userId with
      | none => rw [recorded] at stepped; subst stepped; exact ⟨_, rfl, .inr rfl⟩
      | some linked =>
        rw [recorded] at stepped
        simp only at stepped
        split at stepped
        next => subst stepped; exact ⟨_, rfl, .inr rfl⟩
        next own =>
          cases stored : db.userById linked with
          | none => rw [stored] at stepped; subst stepped; exact ⟨_, rfl, .inr rfl⟩
          | some user =>
            rw [stored] at stepped
            subst stepped
            apply linking_answered
            intro holder found
            rw [found] at own
            obtain rfl := (mem_of_lookup stored).2
            simpa using own

end answers

section callback
variable {env : Settings} {curve : Secp256k1} {now : Instant} {uuid : UserId} {db : Db} {query : LnurlAuthCallbackIn}
  {challenge : LnurlAuthChallenge}

theorem callback_ended {started : Phase} {result : Db × Phase} (consumed : consume env now db query = started)
    (stepped : LnurlCallback.next curve uuid db started = result) (idle : result.2.holding = none) :
    lnurlAuthCallback env curve now uuid db query = result := by
  obtain ⟨after, phase⟩ := result
  have stays : LnurlCallback.next curve uuid after phase = (after, phase) := by
    cases phase with
    | start | finished => rfl
    | _ => cases idle
  unfold lnurlAuthCallback
  rw [consumed, stepped]
  simp only [stays]

theorem refused_callback (action : some challenge.action = query.action.map LnurlAction.value)
    (started : consume env now db query = .consumed query challenge) {raised : PyError}
    (failed : verify curve query.k1 query.key query.sig = .error raised) :
    lnurlAuthCallback env curve now uuid db query = (db, .finished (some challenge) (.raised raised)) := by
  refine callback_ended started ?_ rfl
  rw [LnurlCallback.next, if_neg (not_not.mpr action), failed]

theorem verified_callback (fresh : ∀ user ∈ db.users.rows, user.id ≠ uuid)
    (action : some challenge.action = query.action.map LnurlAction.value)
    (started : consume env now db query = .consumed query challenge) {verified : Bool}
    (returned : verify curve query.k1 query.key query.sig = .ok verified) :
    Answered (lnurlAuthCallback env curve now uuid db query).2 := by
  cases verified with
  | false =>
    have ended : lnurlAuthCallback env curve now uuid db query =
        (db, .finished (some challenge) (.returned (.error "Bad Signature Error"))) := by
      refine callback_ended started ?_ rfl
      rw [LnurlCallback.next, if_neg (not_not.mpr action), returned]
    rw [ended]
    exact ⟨_, rfl, .inr rfl⟩
  | true =>
    have passed : LnurlCallback.next curve uuid db (.consumed query challenge) =
        (db, .resolved query challenge (db.userByPubkey query.key)) := by
      rw [LnurlCallback.next, if_neg (not_not.mpr action), returned]
    unfold lnurlAuthCallback
    rw [started, passed]
    exact resolved_answered fresh rfl

theorem unchecked_callback (unchecked : ¬ Checked env now db query) :
    Answered (lnurlAuthCallback env curve now uuid db query).2 := by
  rcases consume_cases env now db query with started | ⟨challenge, started⟩
  · rw [callback_ended started rfl rfl]
    exact ⟨_, rfl, .inr rfl⟩
  · have mismatch : some challenge.action ≠ query.action.map LnurlAction.value := fun action =>
      unchecked ⟨challenge, started, action⟩
    have ended : lnurlAuthCallback env curve now uuid db query =
        (db, .finished (some challenge) (.returned (.error "Action mismatch"))) := by
      refine callback_ended started ?_ rfl
      rw [LnurlCallback.next, if_pos mismatch]
    rw [ended]
    exact ⟨_, rfl, .inr rfl⟩

/-- The callback answers exactly when it stops before the signature check or can decode
what it is to check; `verify` returns a boolean exactly when it can. -/
theorem callback_answers_iff (env : Settings) (curve : Secp256k1) (now : Instant) (uuid : UserId) (db : Db)
    (query : LnurlAuthCallbackIn) (checks : ChecksDigests curve) (fresh : ∀ user ∈ db.users.rows, user.id ≠ uuid) :
    (Answered (lnurlAuthCallback env curve now uuid db query).2 ↔
      (Checked env now db query → Decodes curve query.k1 query.key query.sig)) ∧
    ((∃ verified, verify curve query.k1 query.key query.sig = .ok verified) ↔ Decodes curve query.k1 query.key query.sig) := by
  have returns : (∃ verified, verify curve query.k1 query.key query.sig = .ok verified) ↔
      Decodes curve query.k1 query.key query.sig :=
    ⟨fun ⟨_, returned⟩ => verify_decodes checks returned, verify_returns checks (Nat.le_of_eq query.k1Length)⟩
  refine ⟨?_, returns⟩
  constructor
  · rintro answered ⟨challenge, started, action⟩
    rw [← returns]
    cases outcome : verify curve query.k1 query.key query.sig with
    | ok verified => exact ⟨verified, rfl⟩
    | error raised =>
      rw [refused_callback action started outcome] at answered
      obtain ⟨response, impossible, -⟩ := answered
      cases impossible
  · intro decodable
    by_cases checked : Checked env now db query
    · obtain ⟨verified, returned⟩ := returns.mpr (decodable checked)
      obtain ⟨challenge, started, action⟩ := checked
      exact verified_callback fresh action started returned
    · exact unchecked_callback checked

end callback

/-- Compressed encodings are decoded, and no signature is valid. -/
def compressedOnly : Secp256k1 where
  VerifyingKey := Unit
  fromString point := if point.length = 33 ∧
    (point.head? = some 2 ∨ point.head? = some 3) then .ok () else .error .malformedPointError
  verifyDigest _ _ digest :=
    if digest = [] then .error (.valueError "invalid literal for int() with base 16") else .error .badSignatureError

theorem compressedOnly_checks : ChecksDigests compressedOnly where
  fitting _ _ _ filled _ := .inr (if_neg filled)
  empty _ _ := ⟨_, rfl⟩

def presenting (key : String) (keyLength : key.length = 66) : LnurlAuthCallbackIn where
  k1 := "3333333333333333333333333333333333333333333333333333333333333333"
  sig := "3006020101020101"
  key
  action := some .login
  k1Length := String.length_ofList
  sigLength := by decide
  keyLength

def oneChallenge : Db where
  users := ⟨[], .nil⟩
  challenges := ⟨[{ k1 := "3333333333333333333333333333333333333333333333333333333333333333", createdAt := 0 }],
    List.nodup_singleton _⟩

theorem wrong_signature_answered :
    Answered (lnurlAuthCallback {} compressedOnly 0 1 oneChallenge
      (presenting "020000000000000000000000000000000000000000000000000000000000000001" String.length_ofList)).2 := by
  refine (callback_answers_iff {} compressedOnly 0 1 oneChallenge _ compressedOnly_checks (fun _ impossible => ?_)).1.mpr ?_
  · cases impossible
  · exact fun _ => ⟨_, _, _, (), bytesFromHex_ofList rfl, List.cons_ne_nil _ _, bytesFromHex_ofList rfl,
      bytesFromHex_ofList rfl, rfl⟩

/-- A key that is not hexadecimal, and one that encodes no point. -/
theorem malformed_key_raises :
    (lnurlAuthCallback {} compressedOnly 0 1 oneChallenge
        (presenting "zz0000000000000000000000000000000000000000000000000000000000000001" String.length_ofList)).2 =
      .finished
        (some { k1 := "3333333333333333333333333333333333333333333333333333333333333333", createdAt := 0, consumed := true })
        (.raised (.valueError "non-hexadecimal number found in fromhex() arg")) ∧
    (lnurlAuthCallback {} compressedOnly 0 1 oneChallenge
        (presenting "050000000000000000000000000000000000000000000000000000000000000001" String.length_ofList)).2 =
      .finished
        (some { k1 := "3333333333333333333333333333333333333333333333333333333333333333", createdAt := 0, consumed := true })
        (.raised .malformedPointError) := by
  constructor
  · refine congrArg Prod.snd (refused_callback rfl rfl ?_)
    exact verify_malformed (bytesFromHex_ofList rfl) (bytesFromHex_malformed rfl)
  · refine congrArg Prod.snd (refused_callback rfl rfl ?_)
    exact verify_undecoded (bytesFromHex_ofList rfl) (bytesFromHex_ofList rfl) (bytesFromHex_ofList rfl) rfl

end Satoidc.Proofs.CallbackAnswers
