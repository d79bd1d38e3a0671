import Mathlib.Data.List.Basic

/-! Logs of events that are each about one subject. Replaying a log gives every
subject the value that its events leave behind; a log is faithful when those are
the values stored elsewhere. -/

namespace Foundation

universe u v w

variable {ε : Type u} {κ : Type v} {σ : Type w} [DecidableEq κ] {subject : ε → κ} {apply : Option σ → ε → Option σ}
  {log more : List ε} {k : κ}

def eventsOf (subject : ε → κ) (log : List ε) (k : κ) : List ε := log.filter fun event => subject event = k

def replay (subject : ε → κ) (apply : Option σ → ε → Option σ) (log : List ε) (k : κ) : Option σ :=
  (eventsOf subject log k).foldl apply none

/-- Replaying the log gives what `cell` holds, of every subject. -/
def Replays (subject : ε → κ) (apply : Option σ → ε → Option σ) (log : List ε) (cell : κ → Option σ) : Prop :=
  ∀ k, replay subject apply log k = cell k

theorem mem_eventsOf {event : ε} : event ∈ eventsOf subject log k ↔ event ∈ log ∧ subject event = k := by
  simp [eventsOf]

@[simp] theorem eventsOf_append : eventsOf subject (log ++ more) k = eventsOf subject log k ++ eventsOf subject more k :=
  List.filter_append ..

theorem eventsOf_eq_nil : eventsOf subject log k = [] ↔ ∀ event ∈ log, subject event ≠ k := by
  simp [eventsOf]

theorem Replays.append {before after : κ → Option σ} (replays : Replays subject apply log before)
    (moves : ∀ k, (eventsOf subject more k).foldl apply (before k) = after k) :
    Replays subject apply (log ++ more) after := by
  intro k
  rw [replay, eventsOf_append, List.foldl_append, ← moves k, ← replays k, replay]

/-- Events that all write one value leave that value, however many they are. -/
theorem foldl_writes {value : Option σ} {events : List ε} (writes : ∀ event ∈ events, ∀ held, apply held event = value)
    (held : Option σ) : events.foldl apply held = if events = [] then held else value := by
  induction events generalizing held with
  | nil => rfl
  | cons event events ih =>
    rw [List.foldl_cons, ih (fun other member => writes other (List.mem_cons_of_mem _ member)),
      writes event List.mem_cons_self held]
    simp

/-- The first event of a subject is the only one that opens it. -/
def OpenedOnce (subject : ε → κ) (opens : ε → Prop) (log : List ε) (k : κ) : Prop :=
  ∃ first rest, eventsOf subject log k = first :: rest ∧ opens first ∧ ∀ event ∈ rest, ¬ opens event

theorem OpenedOnce.append {opens : ε → Prop} (opened : OpenedOnce subject opens log k)
    (quiet : ∀ event ∈ more, subject event = k → ¬ opens event) : OpenedOnce subject opens (log ++ more) k := by
  obtain ⟨first, rest, events, opening, only⟩ := opened
  refine ⟨first, rest ++ eventsOf subject more k, by rw [eventsOf_append, events, List.cons_append], opening, ?_⟩
  intro event member
  rcases List.mem_append.mp member with old | new
  · exact only event old
  · obtain ⟨inside, about⟩ := mem_eventsOf.mp new
    exact quiet event inside about

theorem OpenedOnce.fresh {opens : ε → Prop} (unused : ∀ event ∈ log, subject event ≠ k)
    (opened : OpenedOnce subject opens more k) : OpenedOnce subject opens (log ++ more) k := by
  obtain ⟨first, rest, events, opening⟩ := opened
  exact ⟨first, rest, by rw [eventsOf_append, eventsOf_eq_nil.mpr unused, events, List.nil_append], opening⟩

end Foundation
