import Mathlib.Logic.Relation
import Satoidc.Foundation.Interleaving

/-! Sessions that redeem single-use tickets in three separate steps: hold a
ticket that is available, issue what it is worth (perhaps a fresh ticket), and
mark it consumed. Nothing ties the steps together, so a ticket is single-use
exactly as long as no session issues for a ticket that another has claimed.
Tickets may also be minted outside any redemption. -/

namespace Foundation.Redemption

universe u

variable {ι : Type u}

inductive Status where
  | absent | available | consumed
  deriving DecidableEq, Repr

/-- How far a session has come; `fresh` is the ticket it has issued, if any. -/
inductive Stage (ι : Type u) where
  | idle
  | holding (ticket : ι)
  | issued (ticket : ι) (fresh : Option ι)
  | redeemed (ticket : ι) (fresh : Option ι)
  | failed

inductive Move (ι : Type u) where
  | hold (ticket : ι)
  | fail
  | issue (fresh : Option ι)
  | finish
  | mint (fresh : Option ι)

namespace Stage

/-- The ticket that the session has issued for. -/
def claimed : Stage ι → Option ι
  | .issued ticket _ | .redeemed ticket _ => some ticket
  | .idle | .holding _ | .failed => none

/-- The ticket that the session has issued. -/
def fresh : Stage ι → Option ι
  | .issued _ fresh | .redeemed _ fresh => fresh
  | .idle | .holding _ | .failed => none

end Stage

variable [DecidableEq ι]

def opened (status : ι → Status) : Option ι → ι → Status
  | none => status
  | some ticket => Function.update status ticket .available

def advance : Move ι → (ι → Status) → Stage ι → Option ((ι → Status) × Stage ι)
  | .hold ticket, status, .idle => if status ticket = .available then some (status, .holding ticket) else none
  | .fail, status, .idle | .fail, status, .holding _ => some (status, .failed)
  | .issue fresh, status, .holding ticket =>
    if fresh.all (status · = .absent) then some (opened status fresh, .issued ticket fresh) else none
  | .finish, status, .issued ticket fresh => some (Function.update status ticket .consumed, .redeemed ticket fresh)
  | .mint fresh, status, stage => if fresh.all (status · = .absent) then some (opened status fresh, stage) else none
  | _, _, _ => none

def step : World (ι → Status) (Stage ι) → Nat × Move ι → Option (World (ι → Status) (Stage ι)) :=
  World.step fun _ => advance

def start (status : ι → Status) : World (ι → Status) (Stage ι) := ⟨status, fun _ => .idle⟩

inductive Moved : (ι → Status) → Stage ι → Move ι → (ι → Status) → Stage ι → Prop where
  | holds {status ticket} (available : status ticket = .available) :
      Moved status .idle (.hold ticket) status (.holding ticket)
  | fails {status stage} (unclaimed : stage.claimed = none) : Moved status stage .fail status .failed
  | issues {status ticket fresh} (unused : ∀ other, fresh = some other → status other = .absent) :
      Moved status (.holding ticket) (.issue fresh) (opened status fresh) (.issued ticket fresh)
  | finishes {status ticket fresh} :
      Moved status (.issued ticket fresh) .finish (Function.update status ticket .consumed) (.redeemed ticket fresh)
  | mints {status stage fresh} (unused : ∀ other, fresh = some other → status other = .absent) :
      Moved status stage (.mint fresh) (opened status fresh) stage

omit [DecidableEq ι] in
theorem unused_of_all {status : ι → Status} {fresh : Option ι} (unused : fresh.all (status · = .absent) = true) :
    ∀ other, fresh = some other → status other = .absent := by
  rintro other rfl
  simpa using unused

theorem advance_moved {status after : ι → Status} {stage later : Stage ι} {move : Move ι}
    (taken : advance move status stage = some (after, later)) : Moved status stage move after later := by
  unfold advance at taken
  split at taken
  next ticket status =>
    split at taken
    next available => cases taken; exact .holds available
    next => cases taken
  next => cases taken; exact .fails rfl
  next => cases taken; exact .fails rfl
  next fresh status ticket =>
    split at taken
    next unused => cases taken; exact .issues (unused_of_all unused)
    next => cases taken
  next => cases taken; exact .finishes
  next fresh status stage =>
    split at taken
    next unused => cases taken; exact .mints (unused_of_all unused)
    next => cases taken
  next => cases taken

theorem opened_present {status : ι → Status} {fresh : Option ι} {ticket : ι}
    (unused : ∀ other, fresh = some other → status other = .absent) (present : status ticket ≠ .absent) :
    opened status fresh ticket = status ticket := by
  cases fresh with
  | none => rfl
  | some other =>
    refine Function.update_of_ne ?_ ..
    rintro rfl
    exact present (unused ticket rfl)

/-- A session issues only for a ticket that is still available and that no other
session has issued for without finishing. -/
def Exclusive (world : World (ι → Status) (Stage ι)) (event : Nat × Move ι) : Prop :=
  match event.2, world.sessions event.1 with
  | .issue _, .holding ticket =>
    world.shared ticket = .available ∧ ∀ other fresh, world.sessions other ≠ .issued ticket fresh
  | _, _ => True

/-- What a session that has issued knows of its ticket and of the fresh one. -/
structure Own (status : ι → Status) (stage : Stage ι) : Prop where
  issued : ∀ ticket fresh, stage = .issued ticket fresh → status ticket = .available
  redeemed : ∀ ticket fresh, stage = .redeemed ticket fresh → status ticket = .consumed
  fresh : ∀ ticket, stage.fresh = some ticket → status ticket ≠ .absent

/-- Two sessions have issued for different tickets, and issued different ones. -/
structure Apart (first second : Stage ι) : Prop where
  claimed : ∀ ticket, first.claimed = some ticket → second.claimed ≠ some ticket
  fresh : ∀ ticket, first.fresh = some ticket → second.fresh ≠ some ticket

omit [DecidableEq ι] in
theorem Own.of_unclaimed {status : ι → Status} {stage : Stage ι} (unclaimed : stage.claimed = none) :
    Own status stage := by
  cases stage with
  | idle | holding _ | failed => exact ⟨by rintro _ _ ⟨⟩, by rintro _ _ ⟨⟩, by rintro _ ⟨⟩⟩
  | issued _ _ | redeemed _ _ => cases unclaimed

/-- A step takes no ticket back, and consumes only the one its session has issued for. -/
def Keeps (stage : Stage ι) (before after : ι → Status) : Prop :=
  ∀ ticket, before ticket ≠ .absent →
    after ticket = before ticket ∨ (after ticket = .consumed ∧ ∃ fresh, stage = .issued ticket fresh)

theorem Moved.keeps {before after : ι → Status} {stage later : Stage ι} {move : Move ι}
    (moved : Moved before stage move after later) : Keeps stage before after := by
  intro other present
  cases moved with
  | holds available => exact .inl rfl
  | fails unclaimed => exact .inl rfl
  | issues unused => exact .inl (opened_present unused present)
  | @finishes ticket fresh =>
    by_cases same : other = ticket
    · subst same
      exact .inr ⟨Function.update_self .., fresh, rfl⟩
    · exact .inl (Function.update_of_ne same ..)
  | mints unused => exact .inl (opened_present unused present)

omit [DecidableEq ι] in
theorem Own.of_kept {before after : ι → Status} {stage : Stage ι} (own : Own before stage)
    (kept : ∀ ticket, before ticket ≠ .absent → after ticket = before ticket) : Own after stage := by
  refine ⟨?_, ?_, ?_⟩
  · intro ticket fresh same
    have available := own.issued ticket fresh same
    rw [kept ticket (by rw [available]; nofun), available]
  · intro ticket fresh same
    have consumed := own.redeemed ticket fresh same
    rw [kept ticket (by rw [consumed]; nofun), consumed]
  · intro ticket same
    rw [kept ticket (own.fresh ticket same)]
    exact own.fresh ticket same

theorem Moved.own {before after : ι → Status} {stage later : Stage ι} {move : Move ι}
    (moved : Moved before stage move after later) (own : Own before stage)
    (available : ∀ ticket fresh, stage = .holding ticket → move = .issue fresh → before ticket = .available) :
    Own after later := by
  cases moved with
  | holds held => exact .of_unclaimed rfl
  | fails unclaimed => exact .of_unclaimed rfl
  | @issues ticket fresh unused =>
    have held := available ticket fresh rfl rfl
    refine ⟨?_, by rintro _ _ ⟨⟩, ?_⟩
    · rintro _ _ ⟨⟩
      rw [opened_present unused (by rw [held]; nofun), held]
    · rintro other same
      cases (show fresh = some other from same)
      simp [opened]
  | @finishes ticket fresh =>
    refine ⟨by rintro _ _ ⟨⟩, ?_, ?_⟩
    · rintro _ _ ⟨⟩
      exact Function.update_self ..
    · intro other same
      by_cases equal : other = ticket
      · subst equal
        rw [Function.update_self]
        nofun
      · rw [Function.update_of_ne equal]
        exact own.fresh other same
  | mints unused => exact own.of_kept fun ticket => opened_present unused

omit [DecidableEq ι] in
theorem Own.stable {before after : ι → Status} {stage resting : Stage ι} (own : Own before resting)
    (keeps : Keeps stage before after) (apart : Apart stage resting) : Own after resting := by
  refine ⟨?_, ?_, ?_⟩
  · rintro ticket fresh rfl
    have available := own.issued ticket fresh rfl
    rcases keeps ticket (by rw [available]; nofun) with same | ⟨-, _, rfl⟩
    · rw [same, available]
    · exact absurd rfl (apart.claimed ticket rfl)
  · rintro ticket fresh rfl
    have consumed := own.redeemed ticket fresh rfl
    rcases keeps ticket (by rw [consumed]; nofun) with same | ⟨still, -⟩
    · rw [same, consumed]
    · exact still
  · intro ticket issued
    have present := own.fresh ticket issued
    rcases keeps ticket present with same | ⟨consumed, -⟩
    · rw [same]
      exact present
    · rw [consumed]
      nofun

theorem Moved.apart {before after : ι → Status} {stage later resting : Stage ι} {move : Move ι}
    (moved : Moved before stage move after later) (own : Own before resting) (apart : Apart stage resting)
    (allowed : ∀ ticket fresh, stage = .holding ticket → move = .issue fresh →
      before ticket = .available ∧ ∀ fresh, resting ≠ .issued ticket fresh) :
    Apart later resting := by
  cases moved with
  | holds held => exact ⟨by rintro _ ⟨⟩, by rintro _ ⟨⟩⟩
  | fails unclaimed => exact ⟨by rintro _ ⟨⟩, by rintro _ ⟨⟩⟩
  | @issues ticket fresh unused =>
    obtain ⟨available, alone⟩ := allowed ticket fresh rfl rfl
    refine ⟨?_, ?_⟩
    · rintro _ ⟨⟩ theirs
      cases resting with
      | idle | holding _ | failed => cases theirs
      | issued _ other => cases theirs; exact alone other rfl
      | redeemed _ other =>
        cases theirs
        rw [own.redeemed ticket other rfl] at available
        cases available
    · intro other mine theirs
      exact own.fresh other theirs (unused other mine)
  | finishes => exact ⟨apart.claimed, apart.fresh⟩
  | mints unused => exact apart

/-- Sessions that issue only for tickets they have to themselves. -/
def exclusive : Discipline (fun _ => advance (ι := ι)) Exclusive where
  store _ := True
  own _ := Own
  apart := Apart
  guarantee _ := Keeps
  symmetric _ _ apart := ⟨fun ticket mine theirs => apart.claimed ticket theirs mine,
    fun ticket mine theirs => apart.fresh ticket theirs mine⟩
  moves world mover move _ _ _ own allowed taken := by
    have moved := advance_moved taken
    refine ⟨trivial, moved.own own ?_, moved.keeps⟩
    rintro ticket fresh held rfl
    simp only [Exclusive, held] at allowed
    exact allowed.1
  stable _ _ _ _ _ _ _ _ _ apart keeps own := own.stable keeps apart
  separates world mover other move _ _ _ _ _ theirs allowed taken apart := by
    apply (advance_moved taken).apart theirs apart
    rintro ticket fresh held rfl
    simp only [Exclusive, held] at allowed
    exact ⟨allowed.1, allowed.2 other⟩

theorem exclusive_start (status : ι → Status) : exclusive.Holds (start status) :=
  ⟨trivial, fun _ => .of_unclaimed rfl, fun _ _ _ => ⟨by rintro _ ⟨⟩, by rintro _ ⟨⟩⟩⟩

def SingleUse (world : World (ι → Status) (Stage ι)) : Prop :=
  ∀ first second ticket, (world.sessions first).claimed = some ticket →
    (world.sessions second).claimed = some ticket → first = second

/-- A session has issued `fresh` for `ticket`. -/
def Rotated (world : World (ι → Status) (Stage ι)) (ticket fresh : ι) : Prop :=
  ∃ index, (world.sessions index).claimed = some ticket ∧ (world.sessions index).fresh = some fresh

section held
variable {world : World (ι → Status) (Stage ι)} (held : exclusive.Holds world)
include held

theorem single_use : SingleUse world := by
  intro first second ticket left right
  by_contra different
  exact (held.apart first second different).claimed ticket left right

theorem rotated_rightUnique : Relator.RightUnique (Rotated world) := by
  rintro ticket fresh other ⟨first, claimed, issued⟩ ⟨second, claimedToo, issuedToo⟩
  cases single_use held first second ticket claimed claimedToo
  exact Option.some.inj (issued.symm.trans issuedToo)

theorem rotated_leftUnique : Relator.LeftUnique (Rotated world) := by
  rintro ticket other fresh ⟨first, claimed, issued⟩ ⟨second, claimedToo, issuedToo⟩
  by_cases same : first = second
  · subst same
    exact Option.some.inj (claimed.symm.trans claimedToo)
  · exact absurd issuedToo ((held.apart first second same).fresh fresh issued)

theorem not_rotated {ticket fresh : ι} (available : world.shared ticket = .available)
    (finished : ∀ index fresh, world.sessions index ≠ .issued ticket fresh) : ¬ Rotated world ticket fresh := by
  rintro ⟨index, claimed, -⟩
  cases stage : world.sessions index with
  | idle | holding _ | failed => rw [stage] at claimed; cases claimed
  | issued _ other => rw [stage] at claimed; cases claimed; exact finished index other stage
  | redeemed _ other =>
    rw [stage] at claimed
    cases claimed
    rw [(held.own index).redeemed ticket other stage] at available
    cases available

/-- Of all the tickets that descend from one, at most one is available and not
being rotated. -/
theorem one_available {root first second : ι} (toFirst : Relation.ReflTransGen (Rotated world) root first)
    (toSecond : Relation.ReflTransGen (Rotated world) root second)
    (firstAvailable : world.shared first = .available) (secondAvailable : world.shared second = .available)
    (firstFinished : ∀ index fresh, world.sessions index ≠ .issued first fresh)
    (secondFinished : ∀ index fresh, world.sessions index ≠ .issued second fresh) : first = second := by
  rcases toFirst.total_of_right_unique (rotated_rightUnique held) toSecond with along | along
  · rcases along.cases_head with same | ⟨fresh, rotated, -⟩
    · exact same
    · exact absurd rotated (not_rotated held firstAvailable firstFinished)
  · rcases along.cases_head with same | ⟨fresh, rotated, -⟩
    · exact same.symm
    · exact absurd rotated (not_rotated held secondAvailable secondFinished)

end held

theorem Moved.claimed {before after : ι → Status} {stage later : Stage ι} {move : Move ι} {ticket : ι}
    (moved : Moved before stage move after later) (claimed : stage.claimed = some ticket) :
    later.claimed = some ticket := by
  cases moved with
  | holds available => cases claimed
  | fails unclaimed => cases unclaimed.symm.trans claimed
  | issues unused => cases claimed
  | finishes | mints _ => exact claimed

theorem Moved.redeemed {before after : ι → Status} {later : Stage ι} {move : Move ι} {ticket : ι} {fresh : Option ι}
    (moved : Moved before (.redeemed ticket fresh) move after later) : later = .redeemed ticket fresh := by
  cases moved with
  | fails unclaimed => cases unclaimed
  | mints unused => rfl

theorem claimed_persists {world final : World (ι → Status) (Stage ι)} {events : List (Nat × Move ι)}
    {index : Nat} {ticket : ι} (claimed : (world.sessions index).claimed = some ticket)
    (executed : run step world events = some final) : (final.sessions index).claimed = some ticket := by
  refine run_invariant (fun world => (world.sessions index).claimed = some ticket) ?_ claimed executed
  rintro world ⟨mover, move⟩ next claimed taken
  obtain ⟨shared, session, stepped, rfl⟩ := World.step_some.mp taken
  by_cases same : index = mover
  · subst same
    rw [World.moved_self]
    exact (advance_moved stepped).claimed claimed
  · rw [World.moved_other _ _ _ same]
    exact claimed

/-- A ticket that a session holds is available until some session has redeemed it. -/
def Accounted (world : World (ι → Status) (Stage ι)) : Prop :=
  ∀ index ticket, world.sessions index = .holding ticket →
    world.shared ticket = .available ∨ ∃ other fresh, world.sessions other = .redeemed ticket fresh

theorem Moved.holding {before after : ι → Status} {stage : Stage ι} {move : Move ι} {ticket : ι}
    (moved : Moved before stage move after (.holding ticket)) : after ticket = .available ∨ stage = .holding ticket := by
  cases moved with
  | holds available => exact .inl available
  | mints unused => exact .inr rfl

theorem Accounted.step {world next : World (ι → Status) (Stage ι)} {event : Nat × Move ι}
    (accounted : Accounted world) (taken : Redemption.step world event = some next) : Accounted next := by
  obtain ⟨mover, move⟩ := event
  obtain ⟨shared, session, stepped, rfl⟩ := World.step_some.mp taken
  have moved := advance_moved stepped
  have still : ∀ index ticket, world.sessions index = .holding ticket → shared ticket = .available ∨
      ∃ other fresh, (world.moved mover shared session).sessions other = .redeemed ticket fresh := by
    intro index ticket holding
    rcases accounted index ticket holding with available | ⟨other, fresh, redeemed⟩
    · rcases moved.keeps ticket (by rw [available]; nofun) with kept | ⟨consumed, fresh, issued⟩
      · exact .inl (kept.trans available)
      · rw [issued] at moved
        cases moved with
        | fails unclaimed => cases unclaimed
        | finishes => exact .inr ⟨mover, fresh, World.moved_self ..⟩
        | mints unused =>
          rw [opened_present unused (by rw [available]; nofun), available] at consumed
          cases consumed
    · refine .inr ⟨other, fresh, ?_⟩
      by_cases same : other = mover
      · subst same
        rw [redeemed] at moved
        rw [World.moved_self, moved.redeemed]
      · rw [World.moved_other _ _ _ same, redeemed]
  intro index ticket holding
  by_cases same : index = mover
  · subst same
    rw [World.moved_self] at holding
    subst holding
    rcases moved.holding with available | before
    · exact .inl available
    · exact still index ticket before
  · rw [World.moved_other _ _ _ same] at holding
    exact still index ticket holding

theorem exclusive_of_singleUse {status : ι → Status} {final : World (ι → Status) (Stage ι)}
    {events : List (Nat × Move ι)} (executed : run step (start status) events = some final)
    (single : SingleUse final) : Along step Exclusive (start status) events := by
  refine .of_run executed ?_
  intro first event second reached next split partway taken rest
  obtain ⟨mover, move⟩ := event
  obtain ⟨shared, session, stepped, rfl⟩ := World.step_some.mp taken
  have accounted : Accounted reached := run_invariant Accounted (fun _ _ _ held taken => held.step taken)
    (by rintro _ _ ⟨⟩) partway
  unfold Exclusive
  split
  next fresh ticket issues holding =>
    cases (show move = .issue fresh from issues)
    have moved := advance_moved stepped
    rw [holding] at moved
    -- the mover claims the ticket now, so any other session that claims it is a second one at the end
    have alone : ∀ other, (reached.sessions other).claimed ≠ some ticket := by
      intro other theirs
      have different : other ≠ mover := by
        rintro rfl
        rw [holding] at theirs
        cases theirs
      refine different (single other mover ticket ?_ ?_)
      · refine claimed_persists ?_ rest
        rw [World.moved_other _ _ _ different]
        exact theirs
      · refine claimed_persists ?_ rest
        rw [World.moved_self]
        cases moved with
        | issues unused => rfl
    refine ⟨?_, fun other fresh issued => alone other (by rw [issued]; rfl)⟩
    rcases accounted mover ticket holding with available | ⟨other, fresh, redeemed⟩
    · exact available
    · exact absurd (by rw [redeemed]; rfl) (alone other)
  next => trivial

/-- A run keeps to the guard exactly if no two sessions end up having issued for
one ticket. -/
theorem exclusive_iff {status : ι → Status} {final : World (ι → Status) (Stage ι)} {events : List (Nat × Move ι)}
    (executed : run step (start status) events = some final) :
    Along step Exclusive (start status) events ↔ SingleUse final :=
  ⟨fun along => single_use ((exclusive_start status).run _ along executed), exclusive_of_singleUse executed⟩

end Foundation.Redemption
