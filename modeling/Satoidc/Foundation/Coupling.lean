import Satoidc.Foundation.Provenance
import Satoidc.Foundation.Simulation

/-! Two systems in one. The second reads something that the first one changes, so after
each step of the first it takes a step that tells it; and what the second is asked to do
may depend on the state of the first. Either system alone sees a run of its own. -/

namespace Foundation

universe u v w x y

variable {σ : Type u} {ε : Type v} {τ : Type w} {α : Type x} {β : Type y}

/-- What occurs in the run of the abstract system occurs in the concrete one. -/
theorem Simulation.occurred {step : σ → ε → Option σ} {abstract : τ → α → Option τ}
    (simulation : Simulation step abstract) {cause : τ → α → Prop} {start final : σ} {events : List ε}
    (initially : simulation.invariant start) (executed : run step start events = some final)
    (occurred : Occurred abstract (simulation.view start) (simulation.trace start events) cause) :
    Occurred step start events fun state event => cause (simulation.view state) (simulation.event state event) := by
  induction events generalizing start with
  | nil =>
    obtain ⟨before, _, _, _, split, _⟩ := occurred
    cases before <;> cases split
  | cons event events ih =>
    obtain ⟨next, taken, rest⟩ := run_cons_some.mp executed
    rw [simulation.trace_cons taken] at occurred
    rcases occurred_cons.mp occurred with caused | ⟨abstractNext, moved, later⟩
    · exact occurred_cons.mpr (.inl caused)
    · cases moved.symm.trans (simulation.steps _ _ _ initially taken)
      exact occurred_cons.mpr (.inr ⟨next, taken, ih (simulation.keeps _ _ _ initially taken) rest later⟩)

/-- A step of either system. A request to the second is turned into one of its events, or
refused, in the state that the first one has. -/
def coupled (first : σ → ε → Option σ) (second : τ → α → Option τ) (tell : σ → α) (read : σ → β → Option α) :
    σ × τ → ε ⊕ β → Option (σ × τ)
  | (left, right), .inl event =>
    (first left event).bind fun left => (second right (tell left)).map fun right => (left, right)
  | (left, right), .inr request => (read left request).bind fun event => (second right event).map fun right => (left, right)

/-- The events of the first system. -/
def leftOf (events : List (ε ⊕ β)) : List ε := events.filterMap Sum.getLeft?

section coupled
variable {first : σ → ε → Option σ} {second : τ → α → Option τ} {tell : σ → α} {read : σ → β → Option α}

theorem coupled_left {state next : σ × τ} {event : ε} :
    coupled first second tell read state (.inl event) = some next ↔
      first state.1 event = some next.1 ∧ second state.2 (tell next.1) = some next.2 := by
  simp only [coupled, Option.bind_eq_some_iff, Option.map_eq_some_iff]
  constructor
  · rintro ⟨left, taken, right, told, rfl⟩
    exact ⟨taken, told⟩
  · rintro ⟨taken, told⟩
    exact ⟨next.1, taken, next.2, told, rfl⟩

theorem coupled_right {state next : σ × τ} {request : β} :
    coupled first second tell read state (.inr request) = some next ↔
      ∃ event, read state.1 request = some event ∧ second state.2 event = some next.2 ∧ next.1 = state.1 := by
  simp only [coupled, Option.bind_eq_some_iff, Option.map_eq_some_iff]
  constructor
  · rintro ⟨event, allowed, right, taken, rfl⟩
    exact ⟨event, allowed, taken, rfl⟩
  · rintro ⟨event, allowed, taken, same⟩
    exact ⟨event, allowed, next.2, taken, by rw [← same]⟩

/-- The first system runs as if it were alone. -/
theorem coupled_first {state final : σ × τ} {events : List (ε ⊕ β)}
    (executed : run (coupled first second tell read) state events = some final) :
    run first state.1 (leftOf events) = some final.1 := by
  induction events generalizing state with
  | nil => cases executed; rfl
  | cons event events ih =>
    obtain ⟨next, taken, rest⟩ := run_cons_some.mp executed
    cases event with
    | inl event => exact run_cons_some.mpr ⟨next.1, (coupled_left.mp taken).1, ih rest⟩
    | inr request =>
      obtain ⟨_, _, _, same⟩ := coupled_right.mp taken
      rw [← same]
      exact ih rest

variable (first second tell read) in
/-- The second system takes a step each time: one it is asked for, or the one that tells it. -/
def coupledSecond : Simulation (coupled first second tell read) second where
  invariant _ := True
  view := Prod.snd
  event state
    | .inl event => tell ((first state.1 event).getD state.1)
    | .inr request => (read state.1 request).getD (tell state.1)
  keeps _ _ _ _ _ := trivial
  steps := by
    intro state event next _ taken
    cases event with
    | inl event =>
      obtain ⟨moved, told⟩ := coupled_left.mp taken
      dsimp only
      rw [moved]
      exact told
    | inr request =>
      obtain ⟨event, allowed, moved, -⟩ := coupled_right.mp taken
      dsimp only
      rw [allowed]
      exact moved

/-- What the second system reads is what the first one has. -/
theorem coupled_agrees {agreed : σ → τ → Prop}
    (told : ∀ left right next, second right (tell left) = some next → agreed left next)
    (asked : ∀ left right request event next, agreed left right → read left request = some event →
      second right event = some next →
      agreed left next)
    {state final : σ × τ} {events : List (ε ⊕ β)} (start : agreed state.1 state.2)
    (executed : run (coupled first second tell read) state events = some final) : agreed final.1 final.2 := by
  refine run_invariant (fun state => agreed state.1 state.2) ?_ start executed
  intro state event next held taken
  cases event with
  | inl event => exact told next.1 state.2 next.2 (coupled_left.mp taken).2
  | inr request =>
    obtain ⟨event, allowed, moved, same⟩ := coupled_right.mp taken
    rw [same]
    exact asked state.1 state.2 request event next.2 held allowed moved

/-- What occurs to the second system is something that it is told or asked for. -/
theorem coupled_occurred {cause : τ → α → Prop} {state final : σ × τ} {events : List (ε ⊕ β)}
    (executed : run (coupled first second tell read) state events = some final)
    (occurred : Occurred second state.2 ((coupledSecond first second tell read).trace state events) cause) :
    Occurred (coupled first second tell read) state events fun state event =>
      (∃ left, cause state.2 (tell left)) ∨
        ∃ request asked, event = .inr request ∧ read state.1 request = some asked ∧ cause state.2 asked := by
  have seen := (coupledSecond first second tell read).occurred trivial executed occurred
  refine (seen.taken executed).mono ?_
  intro state event ⟨caused, next, taken⟩
  cases event with
  | inl event => exact .inl ⟨_, caused⟩
  | inr request =>
    obtain ⟨asked, allowed, -⟩ := coupled_right.mp taken
    have same : (coupledSecond first second tell read).event state (.inr request) = asked := by
      change (read state.1 request).getD (tell state.1) = asked
      rw [allowed]
      rfl
    rw [same] at caused
    exact .inr ⟨request, asked, rfl, allowed, caused⟩

end coupled

end Foundation
