import Mathlib.Data.List.Induction
import Satoidc.Foundation.Runs

/-! What a run has done so far: invariants that mention the events behind the
current state, and cells whose value is the last one written to them. -/

namespace Foundation

universe u v w

variable {σ : Type u} {ε : Type v} {α : Type w} {step : σ → ε → Option σ}

theorem run_snoc_some {state final : σ} {events : List ε} {event : ε} :
    run step state (events ++ [event]) = some final ↔
      ∃ reached, run step state events = some reached ∧ step reached event = some final := by
  rw [run_append_some]
  constructor
  · rintro ⟨reached, executed, last⟩
    obtain ⟨next, taken, same⟩ := run_cons_some.mp last
    cases same
    exact ⟨reached, executed, taken⟩
  · rintro ⟨reached, executed, taken⟩
    exact ⟨reached, executed, run_cons_some.mpr ⟨final, taken, rfl⟩⟩

/-- An invariant of the state and of the events that led to it. -/
theorem run_history {guard : σ → ε → Prop} (invariant : List ε → σ → Prop) {start : σ} (initially : invariant [] start)
    (keeps : ∀ past state event next, run step start past = some state → invariant past state → guard state event →
      step state event = some next → invariant (past ++ [event]) next)
    {final : σ} {events : List ε} (along : Along step guard start events) (executed : run step start events = some final) :
    invariant events final := by
  induction events using List.reverseRecOn generalizing final with
  | nil => cases executed; exact initially
  | append_singleton past event ih =>
    obtain ⟨reached, partway, taken⟩ := run_snoc_some.mp executed
    obtain ⟨before, last⟩ := along.append partway
    exact keeps past reached event final partway (ih before partway) last.1 taken

/-- The value that the last event of a run to write a cell gave it. -/
def lastWritten (step : σ → ε → Option σ) (writes : σ → ε → Option α) : σ → α → List ε → α
  | _, value, [] => value
  | state, value, event :: events =>
    match step state event with
    | none => value
    | some next => lastWritten step writes next ((writes state event).getD value) events

theorem lastWritten_snoc {writes : σ → ε → Option α} {state reached next : σ} {value : α} {events : List ε} {event : ε}
    (executed : run step state events = some reached) (taken : step reached event = some next) :
    lastWritten step writes state value (events ++ [event]) =
      (writes reached event).getD (lastWritten step writes state value events) := by
  induction events generalizing state value with
  | nil => cases executed; simp [lastWritten, taken]
  | cons head events ih =>
    obtain ⟨middle, first, rest⟩ := run_cons_some.mp executed
    simp only [List.cons_append, lastWritten, first]
    exact ih rest

/-- A cell that every guarded step either writes as the event says or leaves alone
holds what was last written to it. -/
theorem cell_lastWritten {guard : σ → ε → Prop} {writes : σ → ε → Option α} (cell : σ → α) {start final : σ}
    {events : List ε} (invariant : σ → Prop) (initially : invariant start)
    (keeps : ∀ state event next, invariant state → guard state event → step state event = some next →
      invariant next ∧ cell next = (writes state event).getD (cell state))
    (along : Along step guard start events) (executed : run step start events = some final) :
    cell final = lastWritten step writes start (cell start) events := by
  have held : invariant final ∧ cell final = lastWritten step writes start (cell start) events := by
    refine run_history (fun past state => invariant state ∧ cell state = lastWritten step writes start (cell start) past)
      ⟨initially, rfl⟩ ?_ along executed
    rintro past state event next partway ⟨held, holds⟩ allowed taken
    obtain ⟨stays, written⟩ := keeps state event next held allowed taken
    exact ⟨stays, by rw [lastWritten_snoc partway taken, ← holds, written]⟩
  exact held.2

end Foundation
