import Satoidc.Proofs.KeyRows

/-! Signing-key calls in separate sessions. Nothing in the schema backs the rule
of one active key, so it holds exactly as long as no call writes from rows that
another call has changed in a way that matters. -/

namespace Satoidc.Proofs.KeyRaces
open Foundation KeyRace KeyRows

def AtMostOneActive (store : KeyStore) : Prop :=
  ∀ first ∈ store.keys.rows, ∀ second ∈ store.keys.rows,
    first.status = .active → second.status = .active → first = second

def RetiredStays (before after : KeyStore) : Prop :=
  ∀ row ∈ before.keys.rows, row.status = .retired →
    ∃ later ∈ after.keys.rows, later.kid = row.kid ∧ later.status = .retired

def KidsStay (before after : KeyStore) : Prop :=
  ∀ row ∈ before.keys.rows, ∃ later ∈ after.keys.rows, later.kid = row.kid

/-- An activation may commit: it reactivates no retired key and leaves no other
key active, and it demotes no retired key. A target that was active when it was
read is not written to be active again. -/
structure Activates (store : KeyStore) (key : OidcSigningKey) (actives : List OidcSigningKey) : Prop where
  target : key.status ≠ .active → ∀ row ∈ store.keys.rows, row.kid = key.kid → row.status ≠ .retired
  others : key.status ≠ .active → ∀ row ∈ store.keys.rows, row.kid ≠ key.kid → row.status = .active →
    ∃ active ∈ actives, active.kid = row.kid
  demoted : ∀ row ∈ store.keys.rows, row.kid ≠ key.kid → (∃ active ∈ actives, active.kid = row.kid) →
    row.status ≠ .retired

/-- A first key is stored only while no key is active, and an activation commits
only if it may. -/
def Allowed (store : KeyStore) : Phase → Input → Prop
  | .bootstrapping, .bootstrap generated _ =>
    (∀ row ∈ store.keys.rows, row.kid ≠ generated.key.kid) → ∀ row ∈ store.keys.rows, row.status ≠ .active
  | .activating key _ actives, .activate _ => Activates store key actives
  | _, _ => True

def Ordered (world : World KeyStore Phase) (event : Nat × Input) : Prop :=
  Allowed world.shared (world.sessions event.1) event.2

def Own (store : KeyStore) : Phase → Prop
  | .rotated key => ∃ row ∈ store.keys.rows, row.kid = key.kid
  | .found key _ => ∃ row ∈ store.keys.rows, row.kid = key.kid
  | .activating key _ actives =>
    (∃ row ∈ store.keys.rows, row.kid = key.kid) ∧ ∀ active ∈ actives, active.status = .active
  | .retiring _ expired => ∀ key ∈ expired, key.status = .validating
  | .start | .bootstrapping | .inserted _ | .finished => True

inductive Moved (env : Settings) (fernet : Fernet) (store : KeyStore) : Phase → Input → KeyStore → Phase → Prop where
  | reads {phase input later} (allowed : Allowed store phase input) (knows : Own store later) :
      Moved env fernet store phase input store later
  | inserts {phase input generated now actor row after later} (allowed : Allowed store phase input)
      (created : createSigningKey env fernet generated now store .validating actor = .ok (row, after))
      (knows : Own after later) : Moved env fernet store phase input after later
  | bootstraps {generated now row after}
      (created : createSigningKey env fernet generated now store .active = .ok (row, after)) :
      Moved env fernet store .bootstrapping (.bootstrap generated now) after .finished
  | activates {key now actives actor} :
      Moved env fernet store (.activating key now actives) (.activate actor)
        (activateWrite env now actor key actives store) .finished
  | retires {now expired actor} :
      Moved env fernet store (.retiring now expired) (.retire actor) (retireWrite now actor expired store) .finished

theorem own_reading {store : KeyStore} {kid : String} {now : Instant} {row : Option OidcSigningKey}
    (known : ∀ key, row = some key → ∃ stored ∈ store.keys.rows, stored.kid = key.kid) :
    Own store (reading (.found · now) (activatable kid row)) := by
  cases passed : activatable kid row with
  | error _ => trivial
  | ok key => exact known key (activatable_ok passed).1

theorem created_moved {env : Settings} {fernet : Fernet} {store after : KeyStore} {phase session : Phase} {input : Input}
    {later : OidcSigningKey → Phase} {result : Except PyError (OidcSigningKey × KeyStore)}
    (taken : created store later result = (after, session))
    (refused : ∀ raised, result = .error raised → Allowed store phase input)
    (inserts : ∀ row after, result = .ok (row, after) → Moved env fernet store phase input after (later row)) :
    Moved env fernet store phase input after session := by
  cases result with
  | error raised => cases taken; exact .reads (refused raised rfl) trivial
  | ok pair => cases taken; exact inserts _ _ rfl

theorem advance_moved {env : Settings} {fernet : Fernet} {index : Nat} {input : Input} {store after : KeyStore}
    {phase later : Phase} (own : Own store phase)
    (taken : advance env fernet index input store phase = some (after, later)) :
    Moved env fernet store phase input after later := by
  cases input with
  | create generated now actor =>
    cases phase with
    | start =>
      exact created_moved (Option.some.inj taken) (fun _ _ => trivial) fun _ _ inserted => .inserts trivial inserted trivial
    | _ => cases taken
  | rotate generated now actor =>
    cases phase with
    | start =>
      exact created_moved (Option.some.inj taken) (fun _ _ => trivial) fun _ _ inserted => .inserts trivial inserted trivial
    | _ => cases taken
  | refresh =>
    cases phase with
    | inserted kid =>
      cases taken
      refine .reads trivial ?_
      cases found : store.keyByKid kid with
      | none => trivial
      | some key => exact ⟨key, (mem_of_lookup found).1, rfl⟩
    | _ => cases taken
  | ensure =>
    cases phase with
    | start =>
      cases taken
      refine .reads trivial ?_
      split <;> trivial
    | _ => cases taken
  | bootstrap generated now =>
    cases phase with
    | bootstrapping =>
      refine created_moved (Option.some.inj taken) ?_ fun _ _ inserted => .bootstraps inserted
      intro raised refused fresh
      obtain ⟨after, inserted⟩ := create_fresh fresh
      cases refused.symm.trans inserted
    | _ => cases taken
  | readKey kid now =>
    cases phase with
    | start =>
      cases taken
      exact .reads trivial (own_reading fun key found => ⟨key, (mem_of_lookup found).1, rfl⟩)
    | rotated key =>
      simp only [advance] at taken
      split at taken
      next => cases taken; exact .reads trivial (own_reading fun other same => by cases same; exact own)
      next => cases taken
    | _ => cases taken
  | readActives =>
    cases phase with
    | found key now =>
      cases taken
      refine .reads trivial ⟨own, ?_⟩
      intro active member
      simpa using (List.mem_filter.mp member).2
    | _ => cases taken
  | activate actor =>
    cases phase with
    | activating key now actives => cases taken; exact .activates
    | _ => cases taken
  | readExpired now =>
    cases phase with
    | start =>
      cases taken
      refine .reads trivial ?_
      intro key member
      have matched := (List.mem_filter.mp member).2
      simp only [Bool.and_eq_true, decide_eq_true_eq] at matched
      exact matched.1
    | _ => cases taken
  | retire actor =>
    cases phase with
    | retiring now expired => cases taken; exact .retires
    | _ => cases taken

section effects
variable {env : Settings} {fernet : Fernet} {generated : Generated} {store after : KeyStore} {now : Instant}
  {status : KeyStatus} {actor : String} {row key : OidcSigningKey} {actives expired : List OidcSigningKey}

theorem moved_own {phase later : Phase} {input : Input} (moved : Moved env fernet store phase input after later) :
    Own after later := by
  cases moved with
  | reads _ knows | inserts _ _ knows => exact knows
  | bootstraps _ | activates | retires => trivial

theorem moved_kids {phase later : Phase} {input : Input} (moved : Moved env fernet store phase input after later) :
    KidsStay store after := by
  intro row member
  cases moved with
  | reads _ _ => exact ⟨row, member, rfl⟩
  | inserts _ created _ | bootstraps created =>
    exact ⟨row, by rw [(createSigningKey_ok.mp created).2.1]; exact List.mem_append_left _ member, rfl⟩
  | activates => exact ⟨_, mem_activateWrite.mpr ⟨row, member, rfl⟩, activateRow_kid ..⟩
  | retires => exact ⟨_, mem_retireWrite.mpr ⟨row, member, rfl⟩, retireRow_kid ..⟩

theorem own_stable {phase : Phase} (kids : KidsStay store after) (own : Own store phase) : Own after phase := by
  have target : ∀ {key : OidcSigningKey}, (∃ row ∈ store.keys.rows, row.kid = key.kid) →
      ∃ row ∈ after.keys.rows, row.kid = key.kid := by
    rintro key ⟨row, member, same⟩
    obtain ⟨later, inside, kid⟩ := kids row member
    exact ⟨later, inside, kid.trans same⟩
  cases phase with
  | start | bootstrapping | inserted _ | finished => trivial
  | rotated key | found key now => exact target own
  | activating key now actives => exact ⟨target own.1, own.2⟩
  | retiring now expired => exact own

theorem append_one (one : AtMostOneActive store) (rows : after.keys.rows = store.keys.rows ++ [row])
    (only : row.status = .active → ∀ other ∈ store.keys.rows, other.status ≠ .active) : AtMostOneActive after := by
  intro first left second right firstActive secondActive
  rw [rows, List.mem_append, List.mem_singleton] at left right
  rcases left with left | rfl <;> rcases right with right | rfl
  · exact one first left second right firstActive secondActive
  · exact absurd firstActive (only secondActive first left)
  · exact absurd secondActive (only firstActive second right)
  · rfl

theorem append_retired (rows : after.keys.rows = store.keys.rows ++ [row]) : RetiredStays store after :=
  fun old member retired => ⟨old, by rw [rows]; exact List.mem_append_left _ member, rfl, retired⟩

theorem activates_active (own : ∀ active ∈ actives, active.status = .active) (allowed : Activates store key actives)
    {stored : OidcSigningKey} (member : stored ∈ store.keys.rows)
    (active : (activateRow env now key actives stored).status = .active) :
    if key.status = .active then stored.status = .active else stored.kid = key.kid := by
  by_cases same : stored.kid = key.kid
  · rw [activateRow_target same] at active
    split
    next wasActive => rwa [if_pos wasActive] at active
    next => exact same
  · by_cases inside : ∃ row ∈ actives, row.kid = stored.kid
    · rw [activateRow_demoted own same inside] at active
      cases active
    · rw [activateRow_other same inside] at active
      split
      next => exact active
      next wasNot => exact absurd (allowed.others wasNot stored member same active) inside

theorem activates_one (one : AtMostOneActive store) (own : ∀ active ∈ actives, active.status = .active)
    (allowed : Activates store key actives) : AtMostOneActive (activateWrite env now actor key actives store) := by
  intro first left second right firstActive secondActive
  obtain ⟨a, aMember, rfl⟩ := mem_activateWrite.mp left
  obtain ⟨b, bMember, rfl⟩ := mem_activateWrite.mp right
  have ha := activates_active own allowed aMember firstActive
  have hb := activates_active own allowed bMember secondActive
  have same : a = b := by
    split at ha
    next wasActive => rw [if_pos wasActive] at hb; exact one a aMember b bMember ha hb
    next wasNot =>
      rw [if_neg wasNot] at hb
      exact store.keys.valid.unique aMember bMember (ha.trans hb.symm)
  rw [same]

/-- If an activation keeps retired keys retired, it writes none of them otherwise. -/
theorem retired_row (stays : RetiredStays store (activateWrite env now actor key actives store))
    (member : row ∈ store.keys.rows) (retired : row.status = .retired) :
    (activateRow env now key actives row).status = .retired := by
  obtain ⟨later, inside, kid, kept⟩ := stays row member retired
  have written : activateRow env now key actives row ∈ (activateWrite env now actor key actives store).keys.rows :=
    mem_activateWrite.mpr ⟨row, member, rfl⟩
  rwa [(activateWrite env now actor key actives store).keys.valid.unique inside written
    (kid.trans (activateRow_kid ..).symm)] at kept

theorem activates_retired (allowed : Activates store key actives) :
    RetiredStays store (activateWrite env now actor key actives store) := by
  intro row member retired
  refine ⟨_, mem_activateWrite.mpr ⟨row, member, rfl⟩, activateRow_kid .., ?_⟩
  by_cases same : row.kid = key.kid
  · rw [activateRow_target same]
    split
    next => exact retired
    next wasNot => exact absurd retired (allowed.target wasNot row member same)
  · by_cases inside : ∃ active ∈ actives, active.kid = row.kid
    · exact absurd retired (allowed.demoted row member same inside)
    · rw [activateRow_other same inside, retired]

theorem retires_one (one : AtMostOneActive store) (own : ∀ key ∈ expired, key.status = .validating) :
    AtMostOneActive (retireWrite now actor expired store) := by
  have kept : ∀ row ∈ store.keys.rows, (retireRow now expired row).status = .active → retireRow now expired row = row := by
    intro row member active
    rcases retireRow_status own with retired | same
    · cases active.symm.trans retired
    · exact same
  intro first left second right firstActive secondActive
  obtain ⟨a, aMember, rfl⟩ := mem_retireWrite.mp left
  obtain ⟨b, bMember, rfl⟩ := mem_retireWrite.mp right
  have sameFirst := kept a aMember firstActive
  have sameSecond := kept b bMember secondActive
  rw [sameFirst] at firstActive
  rw [sameSecond] at secondActive
  rw [sameFirst, sameSecond]
  exact one a aMember b bMember firstActive secondActive

theorem retires_retired (own : ∀ key ∈ expired, key.status = .validating) :
    RetiredStays store (retireWrite now actor expired store) := by
  intro row member retired
  refine ⟨_, mem_retireWrite.mpr ⟨row, member, rfl⟩, retireRow_kid .., ?_⟩
  rcases retireRow_status own with done | same
  · exact done
  · rw [same, retired]

end effects

def loading (env : Settings) (fernet : Fernet) : Discipline (advance env fernet) fun _ _ => True where
  store _ := True
  own _ := Own
  apart _ _ := True
  guarantee _ _ := KidsStay
  symmetric _ _ := id
  moves _ _ _ _ _ _ own _ taken := by
    have moved := advance_moved own taken
    exact ⟨trivial, moved_own moved, moved_kids moved⟩
  stable _ _ _ _ _ _ _ _ _ _ kids own := own_stable kids own
  separates _ _ _ _ _ _ _ _ _ _ _ _ _ := trivial

theorem initial_loading (env : Settings) (fernet : Fernet) (store : KeyStore) :
    (loading env fernet).Holds (initial store) :=
  ⟨trivial, fun _ => trivial, fun _ _ _ => trivial⟩

/-- A step that is allowed keeps both rules, and any other step breaks one. -/
theorem moved_rules {env : Settings} {fernet : Fernet} {store after : KeyStore} {phase later : Phase} {input : Input}
    (moved : Moved env fernet store phase input after later) (own : Own store phase) (one : AtMostOneActive store) :
    Allowed store phase input ↔ AtMostOneActive after ∧ RetiredStays store after := by
  cases moved with
  | reads allowed _ => exact iff_of_true allowed ⟨one, fun row member retired => ⟨row, member, rfl, retired⟩⟩
  | inserts allowed created _ =>
    obtain ⟨rfl, rows, -⟩ := createSigningKey_ok.mp created
    exact iff_of_true allowed ⟨append_one one rows (by rintro ⟨⟩), append_retired rows⟩
  | @bootstraps generated now row after created =>
    obtain ⟨rfl, rows, -⟩ := createSigningKey_ok.mp created
    refine ⟨fun allowed => ⟨append_one one rows fun _ => allowed ?_, append_retired rows⟩, ?_⟩
    · have keyed := after.keys.valid
      rw [rows] at keyed
      exact (Keyed.append_singleton.mp keyed).2
    · intro kept fresh other member active
      have same := kept.1 other (by rw [rows]; exact List.mem_append_left _ member)
        (generateKeyRow env fernet generated .active now) (by rw [rows]; exact List.mem_append_right _ List.mem_cons_self)
        active rfl
      exact fresh other member (congrArg OidcSigningKey.kid same)
  | retires => exact iff_of_true trivial ⟨retires_one one own, retires_retired own⟩
  | @activates key now actives actor =>
    obtain ⟨⟨target, targetMember, targetKid⟩, loaded⟩ := own
    refine ⟨fun allowed => ⟨activates_one one loaded allowed, activates_retired allowed⟩, fun kept => ⟨?_, ?_, ?_⟩⟩
    · intro wasNot row member same retired
      have stays := retired_row kept.2 member retired
      rw [activateRow_target same, if_neg wasNot] at stays
      cases stays
    · intro wasNot row member different active
      by_contra missed
      have written : activateRow env now key actives target ∈ (activateWrite env now actor key actives store).keys.rows :=
        mem_activateWrite.mpr ⟨target, targetMember, rfl⟩
      have untouched : row ∈ (activateWrite env now actor key actives store).keys.rows :=
        mem_activateWrite.mpr ⟨row, member, activateRow_other different missed⟩
      have same := kept.1 _ written row untouched (by rw [activateRow_target targetKid, if_neg wasNot]) active
      exact different ((congrArg OidcSigningKey.kid same).symm.trans ((activateRow_kid ..).trans targetKid))
    · intro row member different inside retired
      have stays := retired_row kept.2 member retired
      rw [activateRow_demoted loaded different inside] at stays
      cases stays

theorem retiredStays_trans {first second third : KeyStore} (left : RetiredStays first second)
    (right : RetiredStays second third) : RetiredStays first third := by
  intro row member retired
  obtain ⟨middle, middleMember, middleKid, middleRetired⟩ := left row member retired
  obtain ⟨last, lastMember, lastKid, lastRetired⟩ := right middle middleMember middleRetired
  exact ⟨last, lastMember, lastKid.trans middleKid, lastRetired⟩

/-- Over a whole run: one active key at most in every reached state, and a key
that is retired in a reached state is retired in every later one. -/
def StatusRules (env : Settings) (fernet : Fernet) (start : KeyStore) (events : List (Nat × Input)) : Prop :=
  ∀ first second third before after, events = first ++ second ++ third →
    run (World.step (advance env fernet)) (initial start) first = some before →
    run (World.step (advance env fernet)) before second = some after →
    AtMostOneActive after.shared ∧ RetiredStays before.shared after.shared

theorem ordered_run {env : Settings} {fernet : Fernet} {world final : World KeyStore Phase} {events : List (Nat × Input)}
    (held : (loading env fernet).Holds world) (one : AtMostOneActive world.shared)
    (along : Along (World.step (advance env fernet)) Ordered world events)
    (executed : run (World.step (advance env fernet)) world events = some final) :
    (loading env fernet).Holds final ∧ AtMostOneActive final.shared ∧ RetiredStays world.shared final.shared := by
  refine run_invariant_along (fun reached => (loading env fernet).Holds reached ∧ AtMostOneActive reached.shared ∧
    RetiredStays world.shared reached.shared) ?_ along ⟨held, one, fun row member retired =>
      ⟨row, member, rfl, retired⟩⟩ executed
  rintro reached ⟨mover, input⟩ next ⟨kept, oneThere, stays⟩ allowed taken
  obtain ⟨shared, session, stepped, rfl⟩ := World.step_some.mp taken
  have rules := (moved_rules (advance_moved (kept.own mover) stepped) (kept.own mover) oneThere).mp allowed
  exact ⟨kept.step trivial taken, rules.1, retiredStays_trans stays rules.2⟩

/-- From a table with one active key at most, a run obeys both rules exactly when
every step of it is ordered. -/
theorem status_rules_iff (env : Settings) (fernet : Fernet) (start : KeyStore) (events : List (Nat × Input))
    (world : World KeyStore Phase) (one : AtMostOneActive start)
    (executed : run (World.step (advance env fernet)) (initial start) events = some world) :
    Along (World.step (advance env fernet)) Ordered (initial start) events ↔ StatusRules env fernet start events := by
  constructor
  · rintro along first second third before after rfl early late
    obtain ⟨toAfter, -⟩ := along.append (run_append_some.mpr ⟨before, early, late⟩)
    obtain ⟨toBefore, between⟩ := toAfter.append early
    obtain ⟨held, oneThere, -⟩ := ordered_run (initial_loading env fernet start) one toBefore early
    exact (ordered_run held oneThere between late).2
  · intro rules
    apply along_iff.mpr
    rintro first ⟨mover, input⟩ second reached rfl partway
    have held := (initial_loading env fernet start).run _ (along_true _ _) partway
    have oneThere := (rules first [] ((mover, input) :: second) reached reached (by simp) partway rfl).1
    obtain ⟨before, early, rest⟩ := run_append_some.mp executed
    cases early.symm.trans partway
    obtain ⟨next, taken, -⟩ := run_cons_some.mp rest
    obtain ⟨shared, session, stepped, rfl⟩ := World.step_some.mp taken
    refine (moved_rules (advance_moved (held.own mover) stepped) (held.own mover) oneThere).mpr ?_
    exact rules first [(mover, input)] second _ _ (by simp) partway (run_cons_some.mpr ⟨_, taken, rfl⟩)

def firstKey : Generated := ⟨⟨"kid-1", "n-1", "AQAB", "d-1"⟩, 1⟩

def secondKey : Generated := ⟨⟨"kid-2", "n-2", "AQAB", "d-2"⟩, 2⟩

def twoKeys : Fernet where
  encrypt _ key := key.d
  decrypt token := [firstKey.key, secondKey.key].find? fun key => key.d = token

def expiredStore : KeyStore where
  keys :=
    ⟨[{ generateKeyRow {} twoKeys firstKey .validating 0 with validatingSince := some 0, retiredAfter := some 1 }], by decide⟩
  audit := []

/-- The first key, its replacement and, when tokens of it have run out, its retirement,
with other sessions in between. -/
def firstKeyReplaced : List (Nat × Input) :=
  [(0, .ensure), (0, .bootstrap firstKey 5), (1, .rotate secondKey 6 "admin"), (2, .ensure), (1, .refresh),
    (1, .readKey "kid-2" 7), (1, .readActives), (1, .activate "admin"), (3, .readExpired 1500000008), (4, .ensure),
    (3, .retire "admin")]

theorem first_uses_in_turn : StatusRules {} twoKeys .empty firstKeyReplaced ∧
    ∃ final, run (World.step (advance {} twoKeys)) (initial .empty) firstKeyReplaced = some final ∧
      final.shared.keys.rows.map OidcSigningKey.status = [.retired, .active] := by
  refine ⟨(status_rules_iff {} twoKeys .empty firstKeyReplaced _ ?_ rfl).mp ?_, _, rfl, rfl⟩
  · exact fun first member => nomatch member
  · refine .cons rfl trivial (.cons rfl (fun _ row member => nomatch member) (.cons rfl trivial (.cons rfl trivial ?_)))
    refine .cons rfl trivial (.cons rfl trivial (.cons rfl trivial (.cons rfl ⟨by decide, by decide, by decide⟩ ?_)))
    exact .cons rfl trivial (.cons rfl trivial (.cons rfl trivial trivial))

/-- Two first uses of an empty table at once, and an activation that commits after
the retirement of its target. -/
theorem rules_broken :
    (∃ world, run (World.step (advance {} twoKeys)) (initial .empty)
        [(0, .ensure), (1, .ensure), (0, .bootstrap firstKey 5), (1, .bootstrap secondKey 5)] = some world ∧
      ¬ AtMostOneActive world.shared) ∧
    (∃ before after, run (World.step (advance {} twoKeys)) (initial expiredStore)
        [(0, .readKey "kid-1" 5), (0, .readActives), (1, .readExpired 6), (1, .retire "admin")] = some before ∧
      run (World.step (advance {} twoKeys)) before [(0, .activate "admin")] = some after ∧
      ¬ RetiredStays before.shared after.shared) := by
  constructor
  · refine ⟨_, rfl, ?_⟩
    intro one
    have same := one _ List.mem_cons_self _ (List.mem_cons_of_mem _ List.mem_cons_self) rfl rfl
    exact absurd (congrArg OidcSigningKey.kid same) (by decide)
  · refine ⟨_, _, rfl, rfl, ?_⟩
    intro stays
    obtain ⟨later, member, -, retired⟩ := stays _ List.mem_cons_self rfl
    cases List.mem_singleton.mp member
    cases retired

end Satoidc.Proofs.KeyRaces
