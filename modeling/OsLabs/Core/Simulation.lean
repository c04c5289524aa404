import OsLabs.Core.Run

/-!
# Refinement of a Specification

A system as in `Run`, which gives something out with every step, beside a
specification of it. The specification has states of its own, which need not be
computed, and allows or forbids a step: given its state, an event and what is
given out, it says which states may follow.

The system refines the specification if there is a relation between the states
of the two that every step keeps, the specification taking a step with the same
event and the same output. Then the specification allows whatever a run gives
out, and the run ends where the relation holds again.

Two systems may also differ in how much they do in a step. If each step of the
one is matched by steps of the other, so is each run.

## Main definitions

* `emitted`: What a run gives out.
* `Allows`: The specification allows a run with what it gives out.
* `Refines`: The relation is kept.

## Theorems

* `Refines.run`: Every run is allowed.
* `Reachable.matched`: Every run is one in smaller steps.
-/

namespace OsLabs

section Simulation

variable {σ τ ε ω : Type*} (step : σ → ε → Option σ) (out : σ → ε → ω)
  (spec : τ → ε → ω → τ → Prop)

/-- What the steps of a run give out, in order. -/
def emitted : σ → List ε → List ω
  | _, [] => []
  | s, e :: es => out s e :: (step s e).elim [] fun s' => emitted s' es

/-- The specification allows the events with these outputs, and leads from one
    state to the other. -/
inductive Allows : τ → List ε → List ω → τ → Prop
  | done (d : τ) : Allows d [] [] d
  | step (d d' d'' : τ) (e : ε) (o : ω) (es : List ε) (os : List ω) (h : spec d e o d')
      (rest : Allows d' es os d'') : Allows d (e :: es) (o :: os) d''

/-- Every step of the system is one of the specification. -/
def Refines (R : σ → τ → Prop) : Prop :=
  ∀ s d e s', R s d → step s e = some s' → ∃ d', spec d e (out s e) d' ∧ R s' d'

variable {step out spec} {R : σ → τ → Prop}

/-- Every run of the system is one of the specification. -/
theorem Refines.run (h : Refines step out spec R) (es : List ε) :
    ∀ s d t, R s d → OsLabs.run step s es = some t →
      ∃ d', Allows spec d es (emitted step out s es) d' ∧ R t d' := by
  induction es with
  | nil =>
      intro s d t hR hrun
      rw [OsLabs.run, Option.some.injEq] at hrun
      rw [← hrun]
      exact ⟨d, .done d, hR⟩
  | cons e es ih =>
      intro s d t hR hrun
      rcases run_cons_eq_some.mp hrun with ⟨s', hstep, hrest⟩
      rcases h s d e s' hR hstep with ⟨d', hspec, hR'⟩
      rcases ih s' d' t hR' hrest with ⟨d'', hallows, hend⟩
      refine ⟨d'', ?_, hend⟩
      rw [emitted, hstep]
      exact .step d d' d'' e _ es _ hspec hallows

variable {δ : Type*} {fine : τ → δ → Option τ}

/-- If every step is matched by steps of another system, every run is. -/
theorem Reachable.matched {s s' : σ} {t : τ}
    (hstep : ∀ s e s' t, R s t → step s e = some s' → ∃ t', Reachable fine t t' ∧ R s' t')
    (h : Reachable step s s') (hR : R s t) : ∃ t', Reachable fine t t' ∧ R s' t' := by
  induction h with
  | refl => exact ⟨t, Reaches.refl, hR⟩
  | step v w e _ _ hnext ih =>
      rcases ih with ⟨t', hreach, hR'⟩
      rcases hstep v e w t' hR' hnext with ⟨t'', hmore, hR''⟩
      exact ⟨t'', hreach.trans hmore, hR''⟩

end Simulation

end OsLabs
