import Satoidc.Foundation.Interleaving

/-! Forward simulation between two partial step functions. A run of the concrete
one translates to a run of the abstract one, event by event, so what the guarded
abstract runs satisfy is inherited through the view. -/

namespace Foundation

universe u v w x

/-- Every step from a state that satisfies the invariant is a step of `abstract`
between the views, under the event that `event` reads off. -/
structure Simulation {σ : Type u} {ε : Type v} {τ : Type w} {α : Type x} (step : σ → ε → Option σ)
    (abstract : τ → α → Option τ) where
  invariant : σ → Prop
  view : σ → τ
  event : σ → ε → α
  keeps : ∀ state input next, invariant state → step state input = some next → invariant next
  steps : ∀ state input next, invariant state → step state input = some next →
    abstract (view state) (event state input) = some (view next)

namespace Simulation

variable {σ : Type u} {ε : Type v} {τ : Type w} {α : Type x} {step : σ → ε → Option σ}
  {abstract : τ → α → Option τ}

def trace (simulation : Simulation step abstract) : σ → List ε → List α
  | _, [] => []
  | state, input :: inputs =>
    simulation.event state input :: (step state input).elim [] fun next => simulation.trace next inputs

theorem trace_cons (simulation : Simulation step abstract) {state next : σ} {input : ε} {inputs : List ε}
    (taken : step state input = some next) :
    simulation.trace state (input :: inputs) = simulation.event state input :: simulation.trace next inputs := by
  rw [trace, taken, Option.elim_some]

theorem run_trace (simulation : Simulation step abstract) {state final : σ} {inputs : List ε}
    (start : simulation.invariant state) (executed : run step state inputs = some final) :
    run abstract (simulation.view state) (simulation.trace state inputs) = some (simulation.view final) := by
  induction inputs generalizing state with
  | nil => cases executed; rfl
  | cons input inputs ih =>
    obtain ⟨next, taken, rest⟩ := run_cons_some.mp executed
    rw [simulation.trace_cons taken]
    exact run_cons_some.mpr ⟨_, simulation.steps _ _ _ start taken, ih (simulation.keeps _ _ _ start taken) rest⟩

/-- Guards that agree on the steps taken agree along the whole run. -/
theorem along_trace (simulation : Simulation step abstract) {guard : σ → ε → Prop} {allowed : τ → α → Prop}
    (agree : ∀ state input next, simulation.invariant state → step state input = some next →
      (guard state input ↔ allowed (simulation.view state) (simulation.event state input)))
    {state final : σ} {inputs : List ε} (start : simulation.invariant state)
    (executed : run step state inputs = some final) :
    Along step guard state inputs ↔
      Along abstract allowed (simulation.view state) (simulation.trace state inputs) := by
  induction inputs generalizing state with
  | nil => exact Iff.rfl
  | cons input inputs ih =>
    obtain ⟨next, taken, rest⟩ := run_cons_some.mp executed
    have here := agree _ _ _ start taken
    have later := ih (simulation.keeps _ _ _ start taken) rest
    rw [simulation.trace_cons taken]
    constructor
    · intro along
      exact .cons (simulation.steps _ _ _ start taken) (here.mp along.1) (later.mp (along.2 next taken))
    · intro along
      exact .cons taken (here.mpr along.1) (later.mpr (along.2 _ (simulation.steps _ _ _ start taken)))

end Simulation

namespace World

variable {δ κ δ' κ' ι μ : Type*}

/-- The world as seen through a view of the store and one of the sessions. -/
def map (view : δ → δ') (stage : κ → κ') (world : World δ κ) : World δ' κ' :=
  ⟨view world.shared, fun index => stage (world.sessions index)⟩

theorem map_moved (view : δ → δ') (stage : κ → κ') (world : World δ κ) (mover : Nat) (shared : δ) (session : κ) :
    (world.moved mover shared session).map view stage =
      (world.map view stage).moved mover (view shared) (stage session) := by
  simp only [map, moved, mk.injEq, true_and]
  funext index
  by_cases same : index = mover
  · subst same
    rw [Function.update_self, Function.update_self]
  · rw [Function.update_of_ne same, Function.update_of_ne same]

end World

/-- Every step of a session is an abstract step of that session, under the move
read off from its local states. -/
structure SessionSimulation {δ κ δ' κ' ι μ : Type*} (advance : Nat → ι → δ → κ → Option (δ × κ))
    (abstract : Nat → μ → δ' → κ' → Option (δ' × κ')) where
  invariant : World δ κ → Prop
  view : δ → δ'
  stage : κ → κ'
  move : κ → κ → μ
  keeps : ∀ world event next, invariant world → World.step advance world event = some next → invariant next
  steps : ∀ (world : World δ κ) (mover : Nat) (input : ι) (shared : δ) (session : κ), invariant world →
    advance mover input world.shared (world.sessions mover) = some (shared, session) →
    abstract mover (move (world.sessions mover) session) (view world.shared) (stage (world.sessions mover)) =
      some (view shared, stage session)

namespace SessionSimulation

variable {δ κ δ' κ' ι μ : Type*} {advance : Nat → ι → δ → κ → Option (δ × κ)}
  {abstract : Nat → μ → δ' → κ' → Option (δ' × κ')} (simulation : SessionSimulation advance abstract)

def toSimulation : Simulation (World.step advance) (World.step abstract) where
  invariant := simulation.invariant
  view := World.map simulation.view simulation.stage
  event world event :=
    (event.1, simulation.move (world.sessions event.1)
      ((advance event.1 event.2 world.shared (world.sessions event.1)).elim (world.sessions event.1) Prod.snd))
  keeps := simulation.keeps
  steps := by
    rintro world ⟨mover, input⟩ next held taken
    obtain ⟨shared, session, stepped, rfl⟩ := World.step_some.mp taken
    refine World.step_some.mpr ⟨simulation.view shared, simulation.stage session, ?_, World.map_moved ..⟩
    rw [stepped]
    exact simulation.steps world mover input shared session held stepped

variable {world final : World δ κ} {events : List (Nat × ι)}

theorem run_trace (start : simulation.invariant world)
    (executed : run (World.step advance) world events = some final) :
    run (World.step abstract) (world.map simulation.view simulation.stage)
      (simulation.toSimulation.trace world events) = some (final.map simulation.view simulation.stage) :=
  simulation.toSimulation.run_trace start executed

theorem along_trace {guard : World δ κ → Nat × ι → Prop} {allowed : World δ' κ' → Nat × μ → Prop}
    (agree : ∀ (world : World δ κ) (mover : Nat) (input : ι) (shared : δ) (session : κ), simulation.invariant world →
      advance mover input world.shared (world.sessions mover) = some (shared, session) →
      (guard world (mover, input) ↔ allowed (world.map simulation.view simulation.stage)
        (mover, simulation.move (world.sessions mover) session)))
    (start : simulation.invariant world) (executed : run (World.step advance) world events = some final) :
    Along (World.step advance) guard world events ↔
      Along (World.step abstract) allowed (world.map simulation.view simulation.stage)
        (simulation.toSimulation.trace world events) := by
  refine simulation.toSimulation.along_trace ?_ start executed
  rintro world ⟨mover, input⟩ next held taken
  obtain ⟨shared, session, stepped, rfl⟩ := World.step_some.mp taken
  simp only [toSimulation, stepped, Option.elim_some]
  exact agree world mover input shared session held stepped

end SessionSimulation

end Foundation
