import Mathlib.Logic.Function.Basic

/-!
# Runs of a Transition System

The vocabulary the other modules state their results in. A system is a
partial step function: given a state and an event it returns the next state,
or nothing when the event is not enabled. Everything the system does not
decide itself, such as which thread moves next or what a call into the
operating system returns, is part of the event, so a run is a list of events
and can be evaluated.

A result about "every interleaving" is a result about every list of events.
`Reaches` carries a condition `ok` on the steps, read in the state *before*
the step. With the trivial condition it is plain reachability; with a real
one it describes the runs that stay clear of a defect, which is how a result
that only holds under a condition is stated here.

`Reaches.invariant` is the only induction the invariants of the development
need: an initial state and one step are what a caller proves. `reaches_goal` is
its counterpart for what a system can get done: a measure, and one step that
makes it smaller, lead to where there is nothing left to do.

`outputs` is the other view of a system, as a machine that answers each
operation. Two such machines are compared by their answers to every list of
operations.

## Main definitions

* `run`: Executing a list of events.
* `Meets`: Every step of a run satisfies a condition.
* `Reaches`: Reachability by steps that satisfy a condition.
* `Reachable`: Reachability by any steps.
* `after`: The state of an answering machine after a list of operations.
* `outputs`: The answers of such a machine to a list of operations.

## Theorems

* `run_cons_eq_some`: Peeling the first event off a run.
* `run_append_eq_some`: Splitting a run in two.
* `meets_cons`: Peeling the first event off a condition on a run.
* `meets_congr`: Conditions that agree under an invariant agree on runs.
* `run_iff`: What each step keeps exactly under a condition, a run keeps exactly
  when all its steps meet it.
* `reaches_of_run`: A run whose steps meet a condition is a path.
* `reachable_of_run`: Any run is a path.
* `Reaches.invariant`: An invariant of the steps holds in every state reached.
* `reaches_goal_of_paths`, `reaches_goal`: Paths, or steps, that make a measure
  smaller reach a goal.
* `run_countP_le`, `run_length_le`: If events of a kind, or all events, do, runs
  have only so many of them.
* `Reaches.mono`: Weakening the condition on the steps.
* `Reaches.trans`: Paths compose.
-/

namespace OsLabs

section Steps

variable {σ ε : Type*} (step : σ → ε → Option σ)

/-- Execute a list of events, or `none` if one of them is not enabled. -/
def run : σ → List ε → Option σ
  | s, [] => some s
  | s, e :: es => (step s e).bind fun s' => run s' es

/-- Every step of the run is enabled and satisfies the condition in the state
    it is taken from. -/
def Meets (ok : σ → ε → Prop) : σ → List ε → Prop
  | _, [] => True
  | s, e :: es => ok s e ∧ (step s e).elim False fun s' => Meets ok s' es

/-- A condition that can be checked for a step can be checked for a run. -/
instance decidableMeets (ok : σ → ε → Prop) [∀ s e, Decidable (ok s e)] :
    ∀ s es, Decidable (Meets step ok s es)
  | _, [] => isTrue trivial
  | s, e :: es =>
    let rest : ∀ o : Option σ, Decidable (o.elim False fun s' => Meets step ok s' es)
      | none => isFalse id
      | some s' => decidableMeets ok s' es
    @instDecidableAnd _ _ _ (rest (step s e))

/-- Reachability by steps that satisfy the condition. -/
inductive Reaches (ok : σ → ε → Prop) (s : σ) : σ → Prop
  | refl : Reaches ok s s
  | step (t u : σ) (e : ε) : Reaches ok s t → ok t e → step t e = some u → Reaches ok s u

/-- Reachability by any steps. -/
def Reachable (s t : σ) : Prop := Reaches step (fun _ _ => True) s t

variable {step}

theorem run_cons_eq_some {s t : σ} {e : ε} {es : List ε} :
    run step s (e :: es) = some t ↔ ∃ s', step s e = some s' ∧ run step s' es = some t := by
  rw [run, Option.bind_eq_some_iff]

theorem run_append_eq_some {s t : σ} {es es' : List ε} :
    run step s (es ++ es') = some t ↔ ∃ u, run step s es = some u ∧ run step u es' = some t := by
  induction es generalizing s with
  | nil =>
      simp only [List.nil_append, run, Option.some.injEq]
      exact ⟨fun h => ⟨s, rfl, h⟩, fun ⟨u, hu, h⟩ => hu ▸ h⟩
  | cons e es ih =>
      rw [List.cons_append, run_cons_eq_some]
      constructor
      · rintro ⟨v, hstep, hrun⟩
        rcases ih.mp hrun with ⟨u, hu, hrest⟩
        exact ⟨u, run_cons_eq_some.mpr ⟨v, hstep, hu⟩, hrest⟩
      · rintro ⟨u, hu, hrest⟩
        rcases run_cons_eq_some.mp hu with ⟨v, hstep, hfirst⟩
        exact ⟨v, hstep, ih.mpr ⟨u, hfirst, hrest⟩⟩

theorem meets_cons {ok : σ → ε → Prop} {s s' : σ} {e : ε} {es : List ε}
    (hstep : step s e = some s') :
    Meets step ok s (e :: es) ↔ ok s e ∧ Meets step ok s' es := by
  rw [Meets, hstep, Option.elim_some]

/-- Two conditions on steps that agree wherever an invariant holds agree on the
    runs from there. The steps that meet the first must keep the invariant. -/
theorem meets_congr {ok ok' : σ → ε → Prop} {Inv : σ → Prop}
    (hiff : ∀ v e w, Inv v → step v e = some w → (ok v e ↔ ok' v e))
    (hinv : ∀ v e w, Inv v → ok v e → step v e = some w → Inv w) (es : List ε) {s : σ}
    (h : Inv s) :
    Meets step ok s es ↔ Meets step ok' s es := by
  induction es generalizing s with
  | nil => exact Iff.rfl
  | cons e es ih =>
      cases hstep : step s e with
      | none =>
          -- A run that cannot go on meets no condition.
          unfold Meets
          rw [hstep]
          exact ⟨fun hm => hm.2.elim, fun hm => hm.2.elim⟩
      | some s' =>
          rw [meets_cons hstep, meets_cons hstep, ← hiff s e s' h hstep]
          exact and_congr_right fun hok => ih (hinv s e s' h hok hstep)

/-- A property that each step leads to exactly from where it holds and under the
    condition holds after a run exactly if it did before and every step of the
    run meets the condition. -/
theorem run_iff {ok : σ → ε → Prop} {Inv Q : σ → Prop}
    (hinv : ∀ v e w, Inv v → step v e = some w → Inv w)
    (hstep : ∀ v e w, Inv v → step v e = some w → (Q w ↔ Q v ∧ ok v e)) (es : List ε) :
    ∀ {s t : σ}, Inv s → run step s es = some t → (Q t ↔ Q s ∧ Meets step ok s es) := by
  induction es with
  | nil =>
      intro s t _ hrun
      rw [run, Option.some.injEq] at hrun
      rw [hrun, Meets, and_true]
  | cons e es ih =>
      intro s t h hrun
      rcases run_cons_eq_some.mp hrun with ⟨u, hfirst, hrest⟩
      rw [ih (hinv s e u h hfirst) hrest, hstep s e u h hfirst, meets_cons hfirst, and_assoc]

theorem Reaches.trans {ok : σ → ε → Prop} {s t u : σ}
    (h1 : Reaches step ok s t) (h2 : Reaches step ok t u) : Reaches step ok s u := by
  induction h2 with
  | refl => exact h1
  | step v w e _ hok hstep ih => exact Reaches.step v w e ih hok hstep

/-- Weakening the condition on the steps. -/
theorem Reaches.mono {ok ok' : σ → ε → Prop} {s t : σ}
    (hle : ∀ s e, ok s e → ok' s e) (h : Reaches step ok s t) : Reaches step ok' s t := by
  induction h with
  | refl => exact Reaches.refl
  | step v w e _ hok hstep ih => exact Reaches.step v w e ih (hle v e hok) hstep

/-- What holds initially and survives every step that satisfies the condition
    holds in every state reached by such steps. -/
theorem Reaches.invariant {ok : σ → ε → Prop} {s t : σ} {Inv : σ → Prop}
    (h : Reaches step ok s t) (h0 : Inv s)
    (hstep : ∀ v e w, Inv v → ok v e → step v e = some w → Inv w) : Inv t := by
  induction h with
  | refl => exact h0
  | step v w e _ hok hs ih => exact hstep v e w ih hok hs

/-- If from every state short of the goal some path leads to a smaller measure,
    a path leads to the goal. -/
theorem reaches_goal_of_paths {ok : σ → ε → Prop} {Inv goal : σ → Prop} (measure : σ → Nat)
    (hnext : ∀ s, Inv s → ¬ goal s → ∃ t, Reaches step ok s t ∧ Inv t ∧ measure t < measure s)
    (n : Nat) : ∀ s, Inv s → measure s ≤ n → ∃ t, Reaches step ok s t ∧ Inv t ∧ goal t := by
  induction n with
  | zero =>
      intro s hs hle
      by_cases hgoal : goal s
      · exact ⟨s, Reaches.refl, hs, hgoal⟩
      · rcases hnext s hs hgoal with ⟨t, _, _, hless⟩
        exact absurd (Nat.lt_of_lt_of_le hless hle) (Nat.not_lt_zero _)
  | succ n ih =>
      intro s hs hle
      by_cases hgoal : goal s
      · exact ⟨s, Reaches.refl, hs, hgoal⟩
      · rcases hnext s hs hgoal with ⟨t, hfirst, ht, hless⟩
        rcases ih t ht (by omega) with ⟨u, hreach, hu, hdone⟩
        exact ⟨u, hfirst.trans hreach, hu, hdone⟩

/-- The same when a single step leads to a smaller measure. -/
theorem reaches_goal {ok : σ → ε → Prop} {Inv goal : σ → Prop} (measure : σ → Nat)
    (hnext : ∀ s, Inv s → ¬ goal s →
      ∃ e t, ok s e ∧ step s e = some t ∧ Inv t ∧ measure t < measure s) (n : Nat) :
    ∀ s, Inv s → measure s ≤ n → ∃ t, Reaches step ok s t ∧ Inv t ∧ goal t := by
  refine reaches_goal_of_paths measure (fun s hs hgoal => ?_) n
  rcases hnext s hs hgoal with ⟨e, t, hok, hstep, ht, hless⟩
  exact ⟨t, Reaches.step s t e Reaches.refl hok hstep, ht, hless⟩

/-- A run has no more events of a kind than what a measure comes to at its
    start, if each of them makes the measure smaller and no other makes it
    larger. -/
theorem run_countP_le {ok : σ → ε → Prop} {s t : σ} {es : List ε} {Inv : σ → Prop}
    (kind : ε → Bool) (measure : σ → Nat)
    (hstep : ∀ v e w, Inv v → ok v e → step v e = some w →
      Inv w ∧ measure w + (kind e).toNat ≤ measure v)
    (h : Inv s) (hrun : run step s es = some t) (hok : Meets step ok s es) :
    measure t + es.countP kind ≤ measure s := by
  induction es generalizing s with
  | nil =>
      rw [run, Option.some.injEq] at hrun
      exact hrun ▸ Nat.le_refl (measure s)
  | cons e es ih =>
      rcases run_cons_eq_some.mp hrun with ⟨s', hfirst, hrest⟩
      rcases (meets_cons hfirst).mp hok with ⟨he, hes⟩
      rcases hstep s e s' h he hfirst with ⟨hs', hless⟩
      have hlater := ih hs' hrest hes
      rw [List.countP_cons]
      cases hkind : kind e with
      | true =>
          rw [hkind, Bool.toNat_true] at hless
          rw [if_pos rfl]
          omega
      | false =>
          rw [if_neg Bool.false_ne_true]
          omega

/-- A run whose steps all meet the condition is a path of such steps. The
    induction peels the first event, so the path is extended in front. -/
theorem reaches_of_run {ok : σ → ε → Prop} {s t : σ} {es : List ε}
    (hrun : run step s es = some t) (hok : Meets step ok s es) : Reaches step ok s t := by
  induction es generalizing s with
  | nil =>
      simp only [run, Option.some.injEq] at hrun
      rw [hrun]
      exact Reaches.refl
  | cons e es ih =>
      rcases run_cons_eq_some.mp hrun with ⟨s', hstep, hrest⟩
      rcases (meets_cons hstep).mp hok with ⟨he, hes⟩
      have hfirst : Reaches step ok s s' := Reaches.step s s' e Reaches.refl he hstep
      exact hfirst.trans (ih hrest hes)

/-- That every step is enabled is what a run itself says. -/
theorem meets_of_run {s t : σ} {es : List ε} (hrun : run step s es = some t) :
    Meets step (fun _ _ => True) s es := by
  induction es generalizing s with
  | nil => exact trivial
  | cons e es ih =>
      rcases run_cons_eq_some.mp hrun with ⟨s', hstep, hrest⟩
      exact (meets_cons hstep).mpr ⟨trivial, ih hrest⟩

/-- A run that is enabled throughout meets the trivial condition. -/
theorem reachable_of_run {s t : σ} {es : List ε} (hrun : run step s es = some t) :
    Reachable step s t :=
  reaches_of_run hrun (meets_of_run hrun)

/-- If every step makes the measure smaller, runs are bounded. -/
theorem run_length_le {s t : σ} {es : List ε} {Inv : σ → Prop} (measure : σ → Nat)
    (hstep : ∀ v e w, Inv v → step v e = some w → Inv w ∧ measure w < measure v) (h : Inv s)
    (hrun : run step s es = some t) : measure t + es.length ≤ measure s := by
  have hcount := run_countP_le (fun _ => true) measure (fun v e w hv _ hnext => hstep v e w hv hnext)
    h hrun (meets_of_run hrun)
  rw [List.countP_true] at hcount
  exact hcount

end Steps

section Answers

variable {σ ι ω : Type*}

/-- The state of an answering machine after a list of operations. -/
def after (f : σ → ι → σ × ω) (s : σ) (ops : List ι) : σ :=
  ops.foldl (fun s op => (f s op).1) s

/-- The answers of such a machine to a list of operations, in order. -/
def outputs (f : σ → ι → σ × ω) : σ → List ι → List ω
  | _, [] => []
  | s, op :: ops => (f s op).2 :: outputs f (f s op).1 ops

end Answers

end OsLabs
