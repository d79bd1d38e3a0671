import Mathlib.Data.List.Basic
import Mathlib.Logic.Basic

/-! Executions of a partial step function. An event that is not enabled in the
current state has no successor, so a finite run exists only when each of its
events was enabled when its turn came. -/

namespace Foundation

universe u v

variable {σ : Type u} {ε : Type v} {step : σ → ε → Option σ}

def run (step : σ → ε → Option σ) (state : σ) (events : List ε) : Option σ :=
  events.foldlM step state

@[simp] theorem run_nil (state : σ) : run step state [] = some state := rfl

theorem run_cons (state : σ) (event : ε) (events : List ε) :
    run step state (event :: events) = (step state event).bind fun next => run step next events := rfl

theorem run_cons_some {state final : σ} {event : ε} {events : List ε} :
    run step state (event :: events) = some final ↔
      ∃ next, step state event = some next ∧ run step next events = some final := by
  rw [run_cons, Option.bind_eq_some_iff]

theorem run_append (state : σ) (first second : List ε) :
    run step state (first ++ second) = (run step state first).bind fun next => run step next second := by
  simp only [run, List.foldlM_append]
  rfl

theorem run_append_some {state final : σ} {first second : List ε} :
    run step state (first ++ second) = some final ↔
      ∃ middle, run step state first = some middle ∧ run step middle second = some final := by
  rw [run_append, Option.bind_eq_some_iff]

/-- Every step of the run is taken in a state where `guard` allows its event. -/
def Along (step : σ → ε → Option σ) (guard : σ → ε → Prop) : σ → List ε → Prop
  | _, [] => True
  | state, event :: events =>
    guard state event ∧ ∀ next, step state event = some next → Along step guard next events

theorem Along.cons {guard : σ → ε → Prop} {state next : σ} {event : ε} {events : List ε}
    (taken : step state event = some next) (allowed : guard state event) (rest : Along step guard next events) :
    Along step guard state (event :: events) := by
  refine ⟨allowed, ?_⟩
  intro other same
  cases taken.symm.trans same
  exact rest

theorem Along.append {guard : σ → ε → Prop} {state middle : σ} {first second : List ε}
    (along : Along step guard state (first ++ second)) (executed : run step state first = some middle) :
    Along step guard state first ∧ Along step guard middle second := by
  induction first generalizing state with
  | nil => cases executed; exact ⟨trivial, along⟩
  | cons event first ih =>
    obtain ⟨next, taken, rest⟩ := run_cons_some.mp executed
    refine ⟨⟨along.1, ?_⟩, (ih (along.2 next taken) rest).2⟩
    intro other same
    cases taken.symm.trans same
    exact (ih (along.2 next taken) rest).1

theorem along_iff {guard : σ → ε → Prop} {state : σ} {events : List ε} :
    Along step guard state events ↔
      ∀ first event second reached, events = first ++ event :: second → run step state first = some reached →
        guard reached event := by
  constructor
  · rintro along first event second reached rfl partway
    exact (along.append partway).2.1
  · intro every
    induction events generalizing state with
    | nil => trivial
    | cons event events ih =>
      refine ⟨every [] event events state rfl rfl, fun next taken => ih ?_⟩
      intro first other second reached split partway
      exact every (event :: first) other second reached (by rw [split]; rfl) (run_cons_some.mpr ⟨next, taken, partway⟩)

/-- An invariant that the guarded steps keep holds at the end of a guarded run. -/
theorem run_invariant_along {guard : σ → ε → Prop} (invariant : σ → Prop)
    (keeps : ∀ state event next, invariant state → guard state event → step state event = some next → invariant next)
    {state final : σ} {events : List ε} (along : Along step guard state events)
    (start : invariant state) (executed : run step state events = some final) : invariant final := by
  induction events generalizing state with
  | nil => cases executed; exact start
  | cons event events ih =>
    obtain ⟨next, taken, rest⟩ := run_cons_some.mp executed
    exact ih (along.2 next taken) (keeps _ _ _ start along.1 taken) rest

/-- A guard holds along a run if it holds at every step, given what was run before
and after it. -/
theorem Along.of_run {guard : σ → ε → Prop} {state final : σ} {events : List ε}
    (executed : run step state events = some final)
    (every : ∀ first event second reached next, events = first ++ event :: second → run step state first = some reached →
      step reached event = some next → run step next second = some final → guard reached event) :
    Along step guard state events := by
  apply along_iff.mpr
  intro first event second reached split partway
  rw [split] at executed
  obtain ⟨_, same, rest⟩ := run_append_some.mp executed
  cases partway.symm.trans same
  obtain ⟨next, taken, remaining⟩ := run_cons_some.mp rest
  exact every first event second reached next split partway taken remaining

theorem along_true (state : σ) (events : List ε) : Along step (fun _ _ => True) state events := by
  induction events generalizing state with
  | nil => trivial
  | cons event events ih => exact ⟨trivial, fun next _ => ih next⟩

theorem run_invariant (invariant : σ → Prop)
    (keeps : ∀ state event next, invariant state → step state event = some next → invariant next)
    {state final : σ} {events : List ε} (start : invariant state)
    (executed : run step state events = some final) : invariant final :=
  run_invariant_along invariant (fun _ _ _ held _ taken => keeps _ _ _ held taken)
    (along_true state events) start executed

/-- If a step outside the guard always spoils `good`, a run that stays within
`good` states is guarded. -/
theorem Along.of_reached {guard : σ → ε → Prop} (invariant good : σ → Prop)
    (keeps : ∀ state event next, invariant state → step state event = some next → invariant next)
    (breaks : ∀ state event next, invariant state → step state event = some next → good next → guard state event)
    {state final : σ} {events : List ε} (start : invariant state) (executed : run step state events = some final)
    (reached : ∀ first second middle, events = first ++ second → run step state first = some middle → good middle) :
    Along step guard state events := by
  refine .of_run executed ?_
  intro first event second before next split partway taken _
  refine breaks before event next (run_invariant invariant keeps start partway) taken ?_
  refine reached (first ++ [event]) second next (by rw [split, List.append_assoc]; rfl) ?_
  exact run_append_some.mpr ⟨before, partway, run_cons_some.mpr ⟨next, taken, rfl⟩⟩

end Foundation
