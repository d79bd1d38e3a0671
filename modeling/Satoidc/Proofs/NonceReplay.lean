import Satoidc.AuthorizationCodes

/-! How often a client can get a code with one nonce. The check looks the nonce up in a
table from which redeemed codes are deleted, and the code with the nonce is stored only
after it. -/

namespace Satoidc.Proofs.NonceReplay
open Foundation
open AuthorizationEndpoint (Store Phase Input existsNonce saveAuthorizationCode step initial)

/-- The client and the nonce of a code. -/
def carries (code : IssuedCode) : Option (String × String) := code.nonce.map (code.clientId, ·)

def asks (payload : AuthorizationPayload) : Option (String × String) := payload.nonce.map (payload.clientId, ·)

/-- The code that a session would be given is not one that is stored. -/
def Unused (store : Store) (code : String) : Prop := ∀ row ∈ store.codes.rows, row.code ≠ code

theorem existsNonce_iff {payload : AuthorizationPayload} {codes : IssuedCodes} {pair : String × String}
    (asked : asks payload = some pair) :
    existsNonce payload.nonce payload codes = true ↔ ∃ row ∈ codes.rows, carries row = some pair := by
  obtain ⟨nonce, shown, rfl⟩ := Option.map_eq_some_iff.mp asked
  simp only [existsNonce, List.any_eq_true, Bool.and_eq_true, decide_eq_true_eq, shown]
  constructor
  · rintro ⟨row, member, same, held⟩
    exact ⟨row, member, by rw [carries, held, same]; rfl⟩
  · rintro ⟨row, member, carried⟩
    obtain ⟨value, held, equal⟩ := Option.map_eq_some_iff.mp carried
    obtain ⟨same, rfl⟩ := Prod.mk.inj equal
    exact ⟨row, member, same, held⟩

inductive Moved (store : Store) : Phase → Input → Store → Phase → Prop where
  | rejects {payload} (found : existsNonce payload.nonce payload store.codes = true) :
      Moved store .start (.existsNonce payload) store .rejected
  | passes {payload} (missing : existsNonce payload.nonce payload store.codes = false) :
      Moved store .start (.existsNonce payload) store (.checked payload store.issued.length)
  | refuses {payload seen code userId now} (used : ¬ Unused store code) :
      Moved store (.checked payload seen) (.saveAuthorizationCode code userId now) store .failed
  | saves {payload seen code userId now row} {codes : IssuedCodes} (unused : Unused store code)
    (carried : carries row = asks payload)
      (rows : codes.rows = store.codes.rows ++ [row]) :
      Moved store (.checked payload seen) (.saveAuthorizationCode code userId now) ⟨codes, store.issued ++ [row]⟩ (.issued row)
  | misses {code clientId now} : Moved store .start (.queryAuthorizationCode code clientId now) store .failed
  | queries {code clientId now row} : Moved store .start (.queryAuthorizationCode code clientId now) store (.queried row)
  | deletes {row} {codes : IssuedCodes} (fewer : ∀ other ∈ codes.rows, other ∈ store.codes.rows) :
      Moved store (.queried row) .deleteAuthorizationCode ⟨codes, store.issued⟩ (.redeemed row)

theorem advance_moved {store after : Store} {phase later : Phase} {input : Input}
    (taken : AuthorizationEndpoint.advance input store phase = some (after, later)) : Moved store phase input after later := by
  unfold AuthorizationEndpoint.advance at taken
  split at taken
  next payload =>
    split at taken
    next found => cases taken; exact .rejects found
    next missing => cases taken; exact .passes (by simpa using missing)
  next code userId now payload seen =>
    split at taken
    next raised refused => cases taken; exact .refuses (AuthorizationEndpoint.saveAuthorizationCode_error refused)
    next row codes saved =>
      cases taken
      obtain ⟨unused, clientId, nonce, rows⟩ := AuthorizationEndpoint.saveAuthorizationCode_ok saved
      exact .saves unused (by rw [carries, asks, clientId, nonce]) rows
  next code clientId now =>
    cases found : AuthorizationEndpoint.queryAuthorizationCode code clientId now store.codes with
    | none => rw [found] at taken; cases taken; exact .misses
    | some item => rw [found] at taken; cases taken; exact .queries
  next row => cases taken; exact .deletes fun _ member => (List.mem_filter.mp member).1
  next => cases taken

/-- When a nonce is looked up, every code that the client got with it is still stored;
and when a code is stored, the client got none with its nonce since the lookup. -/
def Remembered (world : World Store Phase) (event : Nat × Input) : Prop :=
  match event.2, world.sessions event.1 with
  | .existsNonce payload, .start =>
    ∀ pair, asks payload = some pair → ∀ row ∈ world.shared.issued, carries row = some pair → row ∈ world.shared.codes.rows
  | .saveAuthorizationCode code _ _, .checked payload seen =>
    Unused world.shared code → ∀ pair, asks payload = some pair → ∀ row ∈ world.shared.issued.drop seen, carries row ≠ some pair
  | _, _ => True

/-- Stored codes have been issued. -/
def StoredIssued (store : Store) : Prop := ∀ row ∈ store.codes.rows, row ∈ store.issued

theorem moved_storedIssued {store after : Store} {phase later : Phase} {input : Input} (stored : StoredIssued store)
    (moved : Moved store phase input after later) : StoredIssued after := by
  cases moved with
  | rejects | passes | refuses | misses | queries => exact stored
  | saves unused carried rows =>
    intro row member
    rw [rows] at member
    rcases List.mem_append.mp member with old | new
    · exact List.mem_append_left _ (stored row old)
    · exact List.mem_append_right _ new
  | deletes fewer =>
    intro row member
    exact stored row (fewer row member)

/-- What a request knows after its check: its nonce was new at that time. -/
def Checked (store : Store) (phase : Phase) : Prop :=
  ∀ payload seen, phase = .checked payload seen →
    seen ≤ store.issued.length ∧ ∀ pair, asks payload = some pair → ∀ row ∈ store.issued.take seen, carries row ≠ some pair

theorem Checked.stable {before after : Store} {phase : Phase} (checked : Checked before phase)
    (grown : before.issued <+: after.issued) : Checked after phase := by
  intro payload seen same
  obtain ⟨within, new⟩ := checked payload seen same
  obtain ⟨later, extended⟩ := grown
  rw [← extended, List.take_append_of_le_length within]
  refine ⟨Nat.le_trans within ?_, new⟩
  rw [List.length_append]
  exact Nat.le_add_right _ _

theorem passes_checked {store : Store} {payload : AuthorizationPayload}
    (missing : existsNonce payload.nonce payload store.codes = false)
    (remembered : ∀ pair, asks payload = some pair → ∀ row ∈ store.issued, carries row = some pair → row ∈ store.codes.rows) :
    Checked store (.checked payload store.issued.length) := by
  rintro _ _ ⟨⟩
  refine ⟨Nat.le_refl _, ?_⟩
  intro pair asked row member carried
  rw [List.take_length] at member
  have found := (existsNonce_iff asked).mpr ⟨row, remembered pair asked row member carried, carried⟩
  exact Bool.false_ne_true (missing.symm.trans found)

theorem saves_distinct {store : Store} {payload : AuthorizationPayload} {seen : Nat} {row : IssuedCode}
    (distinct : UniqueColumn carries store.issued) (checked : Checked store (.checked payload seen))
    (carried : carries row = asks payload)
    (remembered : ∀ pair, asks payload = some pair → ∀ row ∈ store.issued.drop seen, carries row ≠ some pair) :
    UniqueColumn carries (store.issued ++ [row]) := by
  refine UniqueColumn.append_singleton.mpr ⟨distinct, ?_⟩
  intro pair asked other member
  rw [carried] at asked
  rw [← List.take_append_drop seen store.issued] at member
  rcases List.mem_append.mp member with before | since
  · exact (checked payload seen rfl).2 pair asked other before
  · exact remembered pair asked other since

def discipline : Discipline (fun _ => AuthorizationEndpoint.advance) Remembered where
  store store := StoredIssued store ∧ UniqueColumn carries store.issued
  own _ store phase := Checked store phase
  apart _ _ := True
  guarantee _ _ before after := before.issued <+: after.issued
  symmetric _ _ _ := trivial
  stable _ _ _ _ _ _ _ _ _ _ grown checked := checked.stable grown
  separates _ _ _ _ _ _ _ _ _ _ _ _ _ := trivial
  moves world mover input shared session := by
    rintro ⟨stored, distinct⟩ checked remembered taken
    have moved := advance_moved taken
    have kept := moved_storedIssued stored moved
    generalize phase : world.sessions mover = before at moved checked
    simp only [Remembered, phase] at remembered
    cases moved with
    | rejects | refuses | misses | queries | deletes => exact ⟨⟨kept, distinct⟩, nofun, List.prefix_refl _⟩
    | passes missing => exact ⟨⟨kept, distinct⟩, passes_checked missing remembered, List.prefix_refl _⟩
    | saves unused carried rows =>
      exact ⟨⟨kept, saves_distinct distinct checked carried (remembered unused)⟩, nofun, List.prefix_append _ _⟩

/-- No client was ever issued two codes with one nonce, and none that it had been issued
a code with was accepted from it again. -/
structure UsedOnce (events : List (Nat × Input)) : Prop where
  issued : ∀ first second world, events = first ++ second → run step initial first = some world →
    UniqueColumn carries world.shared.issued
  accepted : ∀ first mover payload second before after pair, events = first ++ (mover, .existsNonce payload) :: second →
    run step initial first = some before → step before (mover, .existsNonce payload) = some after →
    after.sessions mover ≠ .rejected → asks payload = some pair → ∀ row ∈ before.shared.issued, carries row ≠ some pair

theorem initial_storedIssued : StoredIssued initial.shared := fun _ member => absurd member List.not_mem_nil

theorem initial_holds : discipline.Holds initial :=
  ⟨⟨initial_storedIssued, List.nodup_nil⟩, fun _ => nofun, fun _ _ _ => trivial⟩

theorem reached_storedIssued {events : List (Nat × Input)} {world : World Store Phase}
    (executed : run step initial events = some world) : StoredIssued world.shared := by
  refine run_invariant (fun world => StoredIssued world.shared) ?_ initial_storedIssued executed
  rintro world ⟨mover, input⟩ next stored taken
  obtain ⟨shared, session, moved, rfl⟩ := World.step_some.mp taken
  exact moved_storedIssued stored (advance_moved moved)

/-- In every run of any number of requests and redemptions, a nonce is used once exactly
if each check still finds every code that was issued with its nonce, and none is issued
with it between the check and the code that it is for. -/
theorem nonces_used_once (events : List (Nat × Input)) (world : World Store Phase)
    (executed : run step initial events = some world) : UsedOnce events ↔ Along step Remembered initial events := by
  constructor
  · intro once
    refine .of_run executed ?_
    rintro first ⟨mover, input⟩ second before next split partway taken _
    obtain ⟨shared, session, advanced, rfl⟩ := World.step_some.mp taken
    have moved := advance_moved advanced
    generalize phase : before.sessions mover = own at moved
    simp only [Remembered, phase]
    cases moved with
    | rejects found =>
      intro pair asked row member carried
      obtain ⟨stored, inside, same⟩ := (existsNonce_iff asked).mp found
      have distinct := once.issued first _ before split partway
      rw [distinct.unique member (reached_storedIssued partway stored inside) carried same]
      exact inside
    | passes missing =>
      intro pair asked row member carried
      refine absurd carried (once.accepted first mover _ second before _ pair split partway taken ?_ asked row member)
      rw [World.moved_self]
      nofun
    | refuses used => exact fun unused => absurd unused used
    | saves unused carried rows =>
      intro _ pair asked row member
      have executed : run step initial (first ++ [(mover, _)]) = some _ :=
        run_append_some.mpr ⟨before, partway, run_cons_some.mpr ⟨_, taken, rfl⟩⟩
      have distinct := once.issued (first ++ [(mover, _)]) second _ (by rw [split, List.append_assoc]; rfl) executed
      exact (UniqueColumn.append_singleton.mp distinct).2 pair (carried.trans asked) row (List.mem_of_mem_drop member)
    | misses | queries | deletes => trivial
  · intro along
    constructor
    · rintro first second world rfl partway
      exact (initial_holds.run _ (along.append partway).1 partway).store.2
    · rintro first mover payload second before after pair rfl partway taken passed asked row member carried
      have both := along.append partway
      obtain ⟨shared, session, advanced, rfl⟩ := World.step_some.mp taken
      have remembered := both.2.1
      have moved := advance_moved advanced
      generalize phase : before.sessions mover = own at moved
      simp only [Remembered, phase] at remembered
      cases moved with
      | rejects => exact passed (World.moved_self _ _ _ _)
      | passes missing =>
        have checked := passes_checked missing remembered
        refine (checked _ _ rfl).2 pair asked row ?_ carried
        rw [List.take_length]
        exact member

def asking (nonce : String) : AuthorizationPayload := { clientId := "client-1", nonce := some nonce }

/-- A code that is issued and redeemed, and a second request with the nonce `nonce`. -/
def twoRequests (nonce : String) : List (Nat × Input) :=
  [(0, .existsNonce (asking "nonce-1")), (0, .saveAuthorizationCode "code-1" 7 0),
    (1, .queryAuthorizationCode "code-1" "client-1" 0), (1, .deleteAuthorizationCode),
    (2, .existsNonce (asking nonce)), (2, .saveAuthorizationCode "code-2" 7 0)]

def atOnce : List (Nat × Input) :=
  [(0, .existsNonce (asking "nonce-1")), (1, .existsNonce (asking "nonce-1")),
    (0, .saveAuthorizationCode "code-1" 7 0), (1, .saveAuthorizationCode "code-2" 7 0)]

theorem twoNonces_once : ∃ world, run step initial (twoRequests "nonce-2") = some world ∧
    world.shared.issued.map carries = [some ("client-1", "nonce-1"), some ("client-1", "nonce-2")] ∧
    UsedOnce (twoRequests "nonce-2") := by
  refine ⟨_, rfl, rfl, (nonces_used_once (twoRequests "nonce-2") _ rfl).mpr ?_⟩
  refine .cons rfl ?_ (.cons rfl ?_ (.cons rfl trivial (.cons rfl trivial (.cons rfl ?_ (.cons rfl ?_ trivial)))))
  · exact fun _ _ row member => absurd member List.not_mem_nil
  · exact fun _ _ _ row member => absurd member List.not_mem_nil
  · rintro _ ⟨⟩ row member carried
    cases List.mem_singleton.mp member
    exact absurd carried (by decide)
  · exact fun _ _ _ row member => absurd member List.not_mem_nil

theorem oneNonce_twice :
    (∃ world, run step initial (twoRequests "nonce-1") = some world ∧ ¬ UniqueColumn carries world.shared.issued) ∧
    (∃ world, run step initial atOnce = some world ∧ ¬ UniqueColumn carries world.shared.issued) ∧
    ¬ UsedOnce (twoRequests "nonce-1") := by
  refine ⟨⟨_, rfl, by decide⟩, ⟨_, rfl, by decide⟩, ?_⟩
  intro once
  exact absurd (once.issued (twoRequests "nonce-1") [] _ rfl rfl) (by decide)

end Satoidc.Proofs.NonceReplay
