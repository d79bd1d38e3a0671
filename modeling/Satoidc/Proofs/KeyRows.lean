import Satoidc.OidcKeys

/-! What a creation, an activation and a retirement do to each row of the key
table. -/

namespace Satoidc.Proofs.KeyRows
open Foundation

theorem activatable_ok {kid : String} {row : Option OidcSigningKey} {key : OidcSigningKey}
    (passed : activatable kid row = .ok key) : row = some key ∧ key.status ≠ .retired := by
  cases row with
  | none => cases passed
  | some found =>
    simp only [activatable] at passed
    split at passed
    next => cases passed
    next usable => cases passed; exact ⟨rfl, usable⟩

variable {env : Settings} {fernet : Fernet} {generated : Generated} {now : Instant} {store after : KeyStore}
  {status : KeyStatus} {actor kid : String} {row key stored : OidcSigningKey} {actives expired : List OidcSigningKey}

theorem create_fresh (fresh : ∀ row ∈ store.keys.rows, row.kid ≠ generated.key.kid) :
    ∃ after, createSigningKey env fernet generated now store status actor =
      .ok (generateKeyRow env fernet generated status now, after) := by
  have keyed : Keyed OidcSigningKey.kid (store.keys.rows ++ [generateKeyRow env fernet generated status now]) :=
    Keyed.append_singleton.mpr ⟨store.keys.valid, fresh⟩
  exact ⟨⟨⟨_, keyed⟩, _⟩, createSigningKey_ok.mpr ⟨rfl, rfl, rfl⟩⟩

theorem mem_activateWrite {later : OidcSigningKey} :
    later ∈ (activateWrite env now actor key actives store).keys.rows ↔
      ∃ row ∈ store.keys.rows, activateRow env now key actives row = later := by
  simp [activateWrite, mem_update]

theorem mem_retireWrite {later : OidcSigningKey} :
    later ∈ (retireWrite now actor expired store).keys.rows ↔ ∃ row ∈ store.keys.rows, retireRow now expired row = later := by
  simp [retireWrite, mem_update]

theorem activateRow_target (same : stored.kid = key.kid) :
    (activateRow env now key actives stored).status = if key.status = .active then stored.status else .active := by
  simp [activateRow, same, OidcSigningKey.flush, OidcSigningKey.activated, writeColumn, eq_comm (a := KeyStatus.active)]

theorem activateRow_demoted (own : ∀ active ∈ actives, active.status = .active) (different : stored.kid ≠ key.kid)
    (member : ∃ active ∈ actives, active.kid = stored.kid) :
    (activateRow env now key actives stored).status = .validating := by
  obtain ⟨active, inside, same⟩ := member
  cases found : lookup OidcSigningKey.kid actives stored.kid with
  | none => exact absurd same (lookup_none.mp found active inside)
  | some loaded =>
    have wasActive := own loaded (mem_of_lookup found).1
    simp [activateRow, different, found, OidcSigningKey.flush, OidcSigningKey.demoted, writeColumn, wasActive]

theorem activateRow_other (different : stored.kid ≠ key.kid) (missed : ¬ ∃ active ∈ actives, active.kid = stored.kid) :
    activateRow env now key actives stored = stored := by
  have unknown : lookup OidcSigningKey.kid actives stored.kid = none :=
    lookup_none.mpr fun active inside same => missed ⟨active, inside, same⟩
  simp [activateRow, different, unknown]

theorem retireRow_status (own : ∀ key ∈ expired, key.status = .validating) :
    (retireRow now expired stored).status = .retired ∨ retireRow now expired stored = stored := by
  unfold retireRow
  split
  next loaded found =>
    have wasValidating := own loaded (mem_of_lookup found).1
    left
    simp [OidcSigningKey.flush, OidcSigningKey.retired, writeColumn, wasValidating]
  next => exact .inr rfl

theorem activateRow_active (member : stored ∈ store.keys.rows) (active : stored.status = .active)
    (different : stored.kid ≠ key.kid) : activateRow env now key store.activeKeys stored = stored.demoted env now := by
  have inside : stored ∈ store.activeKeys := List.mem_filter.mpr ⟨member, by simp [active]⟩
  have keyed : Keyed OidcSigningKey.kid store.activeKeys := store.keys.valid.sublist (List.filter_sublist.map _)
  have found : lookup OidcSigningKey.kid store.activeKeys stored.kid = some stored := (lookup_some keyed).mpr ⟨inside, rfl⟩
  simp [activateRow, different, found, OidcSigningKey.flush, OidcSigningKey.demoted]

theorem activateRow_inactive (member : stored ∈ store.keys.rows) (inactive : stored.status ≠ .active)
    (different : stored.kid ≠ key.kid) : activateRow env now key store.activeKeys stored = stored := by
  apply activateRow_other different
  rintro ⟨active, inside, same⟩
  obtain ⟨activeMember, isActive⟩ := List.mem_filter.mp inside
  rw [store.keys.valid.unique activeMember member same] at isActive
  exact inactive (by simpa using isActive)

theorem retireRow_expired (member : stored ∈ store.keys.rows) :
    retireRow now (expiredKeys now store) stored = stored ∨
      ∃ after, stored.status = .validating ∧ stored.retiredAfter = some after ∧ after < now ∧
        retireRow now (expiredKeys now store) stored = stored.retired now := by
  unfold retireRow
  split
  next loaded found =>
    obtain ⟨inside, same⟩ := mem_of_lookup found
    obtain ⟨loadedMember, due⟩ := List.mem_filter.mp inside
    cases store.keys.valid.unique loadedMember member same
    simp only [Bool.and_eq_true, decide_eq_true_eq, Option.any_eq_true] at due
    obtain ⟨validating, after, deadline, passed⟩ := due
    exact .inr ⟨after, validating, deadline, passed, by simp [OidcSigningKey.flush, OidcSigningKey.retired]⟩
  next => exact .inl rfl

theorem ensure_active (ensured : ensureActiveSigningKey env fernet generated now store = .ok (row, after)) :
    row ∈ after.keys.rows ∧ row.status = .active := by
  unfold ensureActiveSigningKey at ensured
  split at ensured
  next found =>
    cases ensured
    simpa [KeyStore.activeKeys] using List.mem_of_head? found
  next =>
    obtain ⟨rfl, rows, -⟩ := createSigningKey_ok.mp ensured
    exact ⟨by rw [rows]; exact List.mem_append_right _ List.mem_cons_self, rfl⟩

theorem activateSigningKey_ok {result : OidcSigningKey × KeyStore}
    (activated : activateSigningKey env now kid store actor = .ok result) :
    ∃ key, store.keyByKid key.kid = some key ∧ key.status ≠ .retired ∧
      result.2 = activateWrite env now actor key store.activeKeys store := by
  unfold activateSigningKey at activated
  cases passed : activatable kid (store.keyByKid kid) with
  | error raised => rw [passed] at activated; cases activated
  | ok key =>
    rw [passed] at activated
    cases activated
    obtain ⟨found, usable⟩ := activatable_ok passed
    refine ⟨key, ?_, usable, rfl⟩
    rw [(mem_of_lookup found).2]
    exact found

end Satoidc.Proofs.KeyRows
