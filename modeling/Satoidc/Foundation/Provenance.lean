import Satoidc.Foundation.History

/-! Where the things that a state holds come from. A step brings in nothing that is
not covered by something held before it or by what its own event causes, so
everything a run holds in the end traces back to one of its events. -/

namespace Foundation

universe u v w

variable {σ : Type u} {ε : Type v} {step : σ → ε → Option σ} {start : σ} {past : List ε}

/-- Some event of the run so far was taken in a state where `cause` holds of the two. -/
def Occurred (step : σ → ε → Option σ) (start : σ) (past : List ε) (cause : σ → ε → Prop) : Prop :=
  ∃ before event after state, past = before ++ event :: after ∧ run step start before = some state ∧ cause state event

namespace Occurred

variable {cause : σ → ε → Prop}

theorem append (occurred : Occurred step start past cause) (later : List ε) : Occurred step start (past ++ later) cause := by
  obtain ⟨before, event, after, state, split, partway, caused⟩ := occurred
  exact ⟨before, event, after ++ later, state, by rw [split, List.append_assoc, List.cons_append], partway, caused⟩

theorem last {state : σ} {event : ε} (executed : run step start past = some state) (caused : cause state event) :
    Occurred step start (past ++ [event]) cause :=
  ⟨past, event, [], state, rfl, executed, caused⟩

theorem mono {weaker : σ → ε → Prop} (occurred : Occurred step start past cause)
    (implies : ∀ state event, cause state event → weaker state event) : Occurred step start past weaker := by
  obtain ⟨before, event, after, state, split, partway, caused⟩ := occurred
  exact ⟨before, event, after, state, split, partway, implies state event caused⟩

end Occurred

theorem occurred_cons {event : ε} {events : List ε} {cause : σ → ε → Prop} :
    Occurred step start (event :: events) cause ↔
      cause start event ∨ ∃ next, step start event = some next ∧ Occurred step next events cause := by
  constructor
  · rintro ⟨before, found, after, state, split, partway, caused⟩
    cases before with
    | nil => cases split; cases partway; exact .inl caused
    | cons head before =>
      cases split
      obtain ⟨next, taken, rest⟩ := run_cons_some.mp partway
      exact .inr ⟨next, taken, before, found, after, state, rfl, rest, caused⟩
  · rintro (caused | ⟨next, taken, before, found, after, state, rfl, partway, caused⟩)
    · exact ⟨[], event, events, start, rfl, rfl, caused⟩
    · exact ⟨event :: before, found, after, state, rfl, run_cons_some.mpr ⟨next, taken, partway⟩, caused⟩

/-- The events of a run that has come to its end were enabled. -/
theorem Occurred.taken {cause : σ → ε → Prop} {final : σ} (executed : run step start past = some final)
    (occurred : Occurred step start past cause) :
    Occurred step start past fun state event => cause state event ∧ ∃ next, step state event = some next := by
  obtain ⟨before, event, after, state, rfl, partway, caused⟩ := occurred
  obtain ⟨_, same, rest⟩ := run_append_some.mp executed
  cases partway.symm.trans same
  obtain ⟨next, taken, -⟩ := run_cons_some.mp rest
  exact ⟨before, event, after, state, rfl, partway, caused, next, taken⟩

/-- What a state holds, and which events cause things to be held. A thing may be held
because another one is that covers it. -/
structure Provenance {α : Type w} (step : σ → ε → Option σ) (covered : α → α → Prop) (holds : σ → α → Prop)
    (causes : σ → ε → α → Prop) : Prop where
  refl : ∀ item, covered item item
  trans : ∀ {item middle source}, covered item middle → covered middle source → covered item source
  traced : ∀ state event next item, step state event = some next → holds next item →
    ∃ source, covered item source ∧ (holds state source ∨ causes state event source)

theorem Provenance.run {α : Type w} {covered : α → α → Prop} {holds : σ → α → Prop} {causes : σ → ε → α → Prop}
    (provenance : Provenance step covered holds causes) {final : σ} {events : List ε}
    (executed : run step start events = some final) {item : α} (held : holds final item) :
    ∃ source, covered item source ∧
      (holds start source ∨ Occurred step start events fun state event => causes state event source) := by
  have all : ∀ item, holds final item → ∃ source, covered item source ∧
      (holds start source ∨ Occurred step start events fun state event => causes state event source) := by
    refine run_history (fun past state => ∀ item, holds state item → ∃ source, covered item source ∧
      (holds start source ∨ Occurred step start past fun state event => causes state event source))
      ?_ ?_ (along_true start events) executed
    · intro item held
      exact ⟨item, provenance.refl item, .inl held⟩
    · intro past state event next partway known _ taken item held
      obtain ⟨middle, covers, older | caused⟩ := provenance.traced state event next item taken held
      · obtain ⟨source, above, first | occurred⟩ := known middle older
        · exact ⟨source, provenance.trans covers above, .inl first⟩
        · exact ⟨source, provenance.trans covers above, .inr (occurred.append [event])⟩
      · exact ⟨middle, covers, .inr (.last partway caused)⟩
  exact all item held

end Foundation
