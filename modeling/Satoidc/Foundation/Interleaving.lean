import Mathlib.Logic.Function.Basic
import Satoidc.Foundation.Runs

/-! Numbered sessions taking atomic steps on one shared store, in any order.
Each session is a local state; one event moves one session. The rules are the
usual rely-guarantee ones: what a session claims about the store has to survive
the steps of the others. -/

namespace Foundation

universe u v w

structure World (δ : Type u) (κ : Type v) where
  shared : δ
  sessions : Nat → κ

variable {δ : Type u} {κ : Type v} {ι : Type w}

namespace World

/-- The store and the mover's local state after its step; the others keep theirs. -/
def moved (world : World δ κ) (mover : Nat) (shared : δ) (session : κ) : World δ κ :=
  ⟨shared, Function.update world.sessions mover session⟩

@[simp] theorem moved_shared (world : World δ κ) (mover : Nat) (shared : δ) (session : κ) :
    (world.moved mover shared session).shared = shared := rfl

@[simp] theorem moved_self (world : World δ κ) (mover : Nat) (shared : δ) (session : κ) :
    (world.moved mover shared session).sessions mover = session := Function.update_self ..

theorem moved_other (world : World δ κ) (shared : δ) (session : κ) {mover other : Nat} (different : other ≠ mover) :
    (world.moved mover shared session).sessions other = world.sessions other := Function.update_of_ne different ..

/-- Session `event.1` takes the step that `event.2` asks for, if it is enabled. -/
def step (advance : Nat → ι → δ → κ → Option (δ × κ)) (world : World δ κ) (event : Nat × ι) :
    Option (World δ κ) :=
  (advance event.1 event.2 world.shared (world.sessions event.1)).map fun result =>
    world.moved event.1 result.1 result.2

variable {advance : Nat → ι → δ → κ → Option (δ × κ)}

theorem step_some {world next : World δ κ} {mover : Nat} {input : ι} :
    world.step advance (mover, input) = some next ↔
      ∃ shared session, advance mover input world.shared (world.sessions mover) = some (shared, session) ∧
        next = world.moved mover shared session := by
  simp only [step, Option.map_eq_some_iff, Prod.exists]
  constructor
  · rintro ⟨shared, session, taken, rfl⟩
    exact ⟨shared, session, taken, rfl⟩
  · rintro ⟨shared, session, taken, rfl⟩
    exact ⟨shared, session, taken, rfl⟩

end World

/-- A rely-guarantee argument. `store` holds of the shared state, `own` is what
one session knows of it, `apart` what two sessions know of each other, and
`guarantee mover session` bounds what a step of `mover` from the local state
`session` does to the store. Only steps that `guard` allows are accounted for. -/
structure Discipline (advance : Nat → ι → δ → κ → Option (δ × κ))
    (guard : World δ κ → Nat × ι → Prop) where
  store : δ → Prop
  own : Nat → δ → κ → Prop
  apart : κ → κ → Prop
  guarantee : Nat → κ → δ → δ → Prop
  symmetric : ∀ first second, apart first second → apart second first
  moves : ∀ (world : World δ κ) (mover : Nat) (input : ι) (shared : δ) (session : κ),
    store world.shared → own mover world.shared (world.sessions mover) → guard world (mover, input) →
    advance mover input world.shared (world.sessions mover) = some (shared, session) →
    store shared ∧ own mover shared session ∧ guarantee mover (world.sessions mover) world.shared shared
  stable : ∀ (mover other : Nat) (before after : δ) (session idle : κ), other ≠ mover →
    store before → store after → apart session idle → guarantee mover session before after →
    own other before idle → own other after idle
  separates : ∀ (world : World δ κ) (mover other : Nat) (input : ι) (shared : δ) (session : κ),
    other ≠ mover → store world.shared → own mover world.shared (world.sessions mover) →
    own other world.shared (world.sessions other) → guard world (mover, input) →
    advance mover input world.shared (world.sessions mover) = some (shared, session) →
    apart (world.sessions mover) (world.sessions other) → apart session (world.sessions other)

namespace Discipline

variable {advance : Nat → ι → δ → κ → Option (δ × κ)} {guard : World δ κ → Nat × ι → Prop}

structure Holds (discipline : Discipline advance guard) (world : World δ κ) : Prop where
  store : discipline.store world.shared
  own : ∀ index, discipline.own index world.shared (world.sessions index)
  apart : ∀ first second, first ≠ second → discipline.apart (world.sessions first) (world.sessions second)

theorem Holds.step {discipline : Discipline advance guard} {world next : World δ κ} {event : Nat × ι}
    (held : discipline.Holds world) (allowed : guard world event)
    (taken : world.step advance event = some next) : discipline.Holds next := by
  obtain ⟨mover, input⟩ := event
  obtain ⟨shared, session, moved, rfl⟩ := World.step_some.mp taken
  obtain ⟨store, own, guaranteed⟩ :=
    discipline.moves world mover input shared session held.store (held.own mover) allowed moved
  have fromMover : ∀ other, other ≠ mover → discipline.apart session (world.sessions other) := fun other different =>
    discipline.separates world mover other input shared session different held.store (held.own mover)
      (held.own other) allowed moved (held.apart mover other different.symm)
  refine ⟨store, ?_, ?_⟩
  · intro index
    by_cases same : index = mover
    · subst index
      simpa only [World.moved_shared, World.moved_self] using own
    · rw [World.moved_other _ _ _ same]
      exact discipline.stable mover index world.shared shared _ _ same held.store store
        (held.apart mover index (Ne.symm same)) guaranteed (held.own index)
  · intro first second different
    by_cases left : first = mover
    · subst first
      rw [World.moved_self, World.moved_other _ _ _ different.symm]
      exact fromMover second different.symm
    · rw [World.moved_other _ _ _ left]
      by_cases right : second = mover
      · subst second
        rw [World.moved_self]
        exact discipline.symmetric _ _ (fromMover first left)
      · rw [World.moved_other _ _ _ right]
        exact held.apart first second different

theorem Holds.run (discipline : Discipline advance guard) {world final : World δ κ}
    {events : List (Nat × ι)} (held : discipline.Holds world)
    (along : Along (World.step advance) guard world events)
    (executed : run (World.step advance) world events = some final) : discipline.Holds final :=
  run_invariant_along discipline.Holds (fun _ _ _ held allowed taken => held.step allowed taken)
    along held executed

end Discipline

end Foundation
