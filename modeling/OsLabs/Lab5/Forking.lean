import OsLabs.Core.Tally
import OsLabs.Lab5.Integrator

/-!
# The Calculator's Children

`integrate` of the calculator cuts the interval into `k` parts and starts a
child for each of them. All the children write into one pipe, so what the parent
reads comes in the order in which they finish, and nothing says whose it is.
The numbers are exact here.

The parent reads `k` times. When a child fails to write, a `read` fails for it,
but only after all the other results have been read: the pipe is at its end
when every child has closed it. So the total is that of the children whose
`write` has succeeded. A child that is killed before it writes is one whose
`write` fails.

A full pipe stops the children, and an empty one the parent. `goes_on` says that
they never wait for each other, and `step_left` that there is a last step.

## Main definitions

* `function`, `integrate_dx`: As in the source, over the rationals.
* `Child`, `Parent`, `State`: Where a child and the parent are.
* `parent`, `child`, `step`: `integrate` as a transition system.
* `Sound`: What is in the pipe and in the total.

## Theorems

* `step_moves`: Every step is one of its moves.
* `sound_step`: Every step keeps the invariant.
* `step_left`: Every step leaves fewer.
* `goes_on`: Before `integrate` returns, somebody can take a step.
* `total_eq_written`: The total when it returns.
* `always_returns`: That it does.
* `total_eq_integrate_range`: The total against that of `integrator`.
-/

namespace OsLabs

namespace Lab5

namespace Forking

def function (x : ℚ) : ℚ := 4 / (x * x + 1)

def integrate_dx (a dx : ℚ) : ℚ := (function a + function (a + dx)) / 2 * dx

/-- A child, and what has become of its `write`. -/
inductive Child
  | unforked
  | computing
  /-- At `close`. -/
  | wrote (written : Bool)
  /-- At `exit`. -/
  | closed (written : Bool)
  | exited (written : Bool)
  deriving DecidableEq

/-- The parent, with the variable of its loop. -/
inductive Parent
  | forking (i : ℕ)
  | reading (i : ℕ)
  | waiting (i : ℕ)
  | returned
  /-- `fork` has failed, and the parent has left with `exit(1)`. -/
  | gone

structure State (k : ℕ) where
  parent : Parent
  child : Fin k → Child
  /-- What is in the pipe. -/
  pipe : List ℚ
  total : ℚ
  /-- How many calls of `read` have failed. -/
  failures : ℕ

inductive Event (k : ℕ)
  /-- A step of the parent; `fork` may fail. -/
  | parent (fails : Bool)
  /-- A step of a child; `write` may fail. -/
  | child (i : Fin k) (written : Bool)

/-- The child has the end of the pipe for writing. -/
def Child.holds : Child → Bool
  | .computing => true
  | .wrote _ => true
  | _ => false

/-- The child has written its result. -/
def Child.written : Child → Bool
  | .wrote written => written
  | .closed written => written
  | .exited written => written
  | _ => false

/-- `wait` returns for the child. -/
def Child.ended : Child → Bool
  | .exited _ => true
  | _ => false

section Program

variable (capacity : ℕ) (a b : ℚ) {k : ℕ}

/-- The result of the child number `i`. -/
def local_result (k i : ℕ) : ℚ :=
  let dx := (b - a) / k
  integrate_dx (a + i * dx) dx

/-- The next step of the parent, which waits in `read` while the pipe is empty
    and a child may write yet, and in `wait` for a child that has exited. -/
def parent (s : State k) (fails : Bool) : Option (State k) :=
  match s.parent with
  | .forking i =>
      if hi : i < k then
        if fails then some { s with parent := .gone }
        else some { s with
          parent := .forking (i + 1)
          child := Function.update s.child ⟨i, hi⟩ .computing }
      else some { s with parent := .reading 0 }
  | .reading i =>
      if i < k then
        match s.pipe with
        | partial_result :: pipe => some { s with
            parent := .reading (i + 1)
            pipe := pipe
            total := s.total + partial_result }
        | [] =>
          if ∃ j, (s.child j).holds = true then none
          else some { s with parent := .reading (i + 1), failures := s.failures + 1 }
      else some { s with parent := .waiting 0 }
  | .waiting i =>
      if i < k then
        if i < countOf Child.ended s.child then some { s with parent := .waiting (i + 1) } else none
      else some { s with parent := .returned }
  | .returned => none
  | .gone => none

/-- The next step of a child, which waits in `write` while the pipe is full. -/
def child (s : State k) (i : Fin k) (written : Bool) : Option (State k) :=
  match s.child i with
  | .unforked => none
  | .computing =>
      if written then
        if s.pipe.length < capacity then some { s with
          child := Function.update s.child i (.wrote true)
          pipe := s.pipe ++ [local_result a b k i] }
        else none
      else some { s with child := Function.update s.child i (.wrote false) }
  | .wrote written => some { s with child := Function.update s.child i (.closed written) }
  | .closed written => some { s with child := Function.update s.child i (.exited written) }
  | .exited _ => none

def step (s : State k) : Event k → Option (State k)
  | .parent fails => parent s fails
  | .child i written => child capacity a b s i written

def start (k : ℕ) : State k where
  parent := .forking 0
  child _ := .unforked
  pipe := []
  total := 0
  failures := 0

/-- What a step of the parent does. -/
inductive ParentMove (s : State k) : State k → Prop
  | fork_fails (i : ℕ) : s.parent = .forking i → i < k → ParentMove s { s with parent := .gone }
  | fork (i : ℕ) (hi : i < k) : s.parent = .forking i →
      ParentMove s { s with
        parent := .forking (i + 1)
        child := Function.update s.child ⟨i, hi⟩ .computing }
  | forked (i : ℕ) : s.parent = .forking i → ¬ i < k →
      ParentMove s { s with parent := .reading 0 }
  | read (i : ℕ) (partial_result : ℚ) (pipe : List ℚ) : s.parent = .reading i → i < k →
      s.pipe = partial_result :: pipe →
      ParentMove s { s with
        parent := .reading (i + 1)
        pipe := pipe
        total := s.total + partial_result }
  | read_fails (i : ℕ) : s.parent = .reading i → i < k → s.pipe = [] →
      (∀ j, (s.child j).holds = false) →
      ParentMove s { s with parent := .reading (i + 1), failures := s.failures + 1 }
  | close (i : ℕ) : s.parent = .reading i → ¬ i < k → ParentMove s { s with parent := .waiting 0 }
  | wait (i : ℕ) : s.parent = .waiting i → i < k → i < countOf Child.ended s.child →
      ParentMove s { s with parent := .waiting (i + 1) }
  | done (i : ℕ) : s.parent = .waiting i → ¬ i < k → ParentMove s { s with parent := .returned }

/-- What a step of a child does. -/
inductive ChildMove (s : State k) (i : Fin k) : State k → Prop
  | write : s.child i = .computing → s.pipe.length < capacity →
      ChildMove s i { s with
        child := Function.update s.child i (.wrote true)
        pipe := s.pipe ++ [local_result a b k i] }
  | write_fails : s.child i = .computing →
      ChildMove s i { s with child := Function.update s.child i (.wrote false) }
  | close (written : Bool) : s.child i = .wrote written →
      ChildMove s i { s with child := Function.update s.child i (.closed written) }
  | exit (written : Bool) : s.child i = .closed written →
      ChildMove s i { s with child := Function.update s.child i (.exited written) }

end Program

/-- How many calls of `read` have returned. -/
def Parent.reads (k : ℕ) : Parent → ℕ
  | .forking _ => 0
  | .reading i => i
  | .waiting _ => k
  | .returned => k
  | .gone => 0

/-- How far the parent is with starting and with waiting for the children. -/
def Agrees {k : ℕ} (child : Fin k → Child) : Parent → Prop
  | .forking i => i ≤ k ∧ ∀ j : Fin k, child j = .unforked ↔ i ≤ j
  | .reading i => i ≤ k ∧ ∀ j, child j ≠ .unforked
  | .waiting i => (∀ j, child j ≠ .unforked) ∧ i ≤ countOf Child.ended child
  | .returned => countOf Child.ended child = k
  | .gone => True

/-- What the children have contributed. -/
def share (a b : ℚ) {k : ℕ} (i : Fin k) (c : Child) : ℚ :=
  if c.written then local_result a b k i else 0

structure Sound (a b : ℚ) {k : ℕ} (s : State k) : Prop where
  agrees : Agrees s.child s.parent
  /-- Every result is in the total or in the pipe. -/
  total_eq : s.total + s.pipe.sum = sumOf (share a b) s.child
  /-- So are their numbers. -/
  reads_eq : s.parent.reads k + s.pipe.length = countOf Child.written s.child + s.failures
  /-- After the first `read` that fails nothing is written any more. -/
  drained : 0 < s.failures →
    s.pipe = [] ∧ ∀ j, (s.child j).holds = false ∧ s.child j ≠ .unforked

section Moves

variable {capacity k : ℕ} {a b : ℚ} {s t : State k}

theorem parent_moves {fails : Bool} (hstep : parent s fails = some t) : ParentMove s t := by
  unfold parent at hstep
  split at hstep
  · rename_i i hparent
    by_cases hi : i < k
    · rw [dif_pos hi] at hstep
      cases fails with
      | true =>
          cases hstep
          exact .fork_fails i hparent hi
      | false =>
          cases hstep
          exact .fork i hi hparent
    · rw [dif_neg hi] at hstep
      cases hstep
      exact .forked i hparent hi
  · rename_i i hparent
    by_cases hi : i < k
    · rw [if_pos hi] at hstep
      split at hstep
      · rename_i partial_result pipe hpipe
        cases hstep
        exact .read i partial_result pipe hparent hi hpipe
      · rename_i hpipe
        rw [Option.ite_none_left_eq_some, Option.some.injEq] at hstep
        rcases hstep with ⟨hnobody, rfl⟩
        refine .read_fails i hparent hi hpipe fun j => ?_
        exact Bool.eq_false_iff.mpr fun hj => hnobody ⟨j, hj⟩
    · rw [if_neg hi] at hstep
      cases hstep
      exact .close i hparent hi
  · rename_i i hparent
    by_cases hi : i < k
    · rw [if_pos hi, Option.ite_none_right_eq_some, Option.some.injEq] at hstep
      rcases hstep with ⟨hended, rfl⟩
      exact .wait i hparent hi hended
    · rw [if_neg hi] at hstep
      cases hstep
      exact .done i hparent hi
  · cases hstep
  · cases hstep

theorem child_moves {i : Fin k} {written : Bool}
    (hstep : child capacity a b s i written = some t) : ChildMove capacity a b s i t := by
  unfold child at hstep
  split at hstep
  · cases hstep
  · rename_i hchild
    cases written with
    | true =>
        rw [if_pos rfl, Option.ite_none_right_eq_some, Option.some.injEq] at hstep
        rcases hstep with ⟨hroom, rfl⟩
        exact .write hchild hroom
    | false =>
        cases hstep
        exact .write_fails hchild
  · rename_i w hchild
    cases hstep
    exact .close w hchild
  · rename_i w hchild
    cases hstep
    exact .exit w hchild
  · cases hstep

theorem step_moves {e : Event k} (hstep : step capacity a b s e = some t) :
    ParentMove s t ∨ ∃ i, ChildMove capacity a b s i t := by
  cases e with
  | parent fails => exact Or.inl (parent_moves hstep)
  | child i written => exact Or.inr ⟨i, child_moves hstep⟩

end Moves

section Invariant

variable {capacity k : ℕ} {a b : ℚ} {s t : State k}

theorem sound_start : Sound a b (start k) where
  agrees := ⟨Nat.zero_le k, fun j => ⟨fun _ => Nat.zero_le _, fun _ => rfl⟩⟩
  total_eq := by
    rw [start, List.sum_nil, add_zero]
    exact (Finset.sum_eq_zero fun i _ => rfl).symm
  reads_eq := by
    have hnone : countOf Child.written (start k).child = 0 := countOf_eq_zero_iff.mpr fun _ => rfl
    rw [hnone]
    rfl
  drained h := absurd h (Nat.lt_irrefl 0)

/-- What the parent knows about the children stays true when one of them goes
    on. -/
theorem agrees_update {f : Fin k → Child} {p : Parent} (h : Agrees f p) {i : Fin k} {c : Child}
    (hforked : f i ≠ .unforked) (hended : (f i).ended = false) (hc : c ≠ .unforked) :
    Agrees (Function.update f i c) p := by
  have hiff : ∀ j, Function.update f i c j = .unforked ↔ f j = .unforked := by
    intro j
    by_cases hj : j = i
    · rw [hj, Function.update_self]
      exact ⟨fun h => absurd h hc, fun h => absurd h hforked⟩
    · rw [Function.update_of_ne hj]
  cases p with
  | forking n => exact ⟨h.1, fun j => (hiff j).trans (h.2 j)⟩
  | reading n => exact ⟨h.1, fun j hj => h.2 j ((hiff j).mp hj)⟩
  | waiting n =>
      have hmore := countOf_update (p := Child.ended) (f := f) (i := i) (a := c)
      rw [hended, Bool.toNat_false, Nat.add_zero] at hmore
      have hn := h.2
      exact ⟨fun j hj => h.1 j ((hiff j).mp hj), by omega⟩
  | returned =>
      -- Then all of them have exited, this one too.
      have hall := countOf_eq_card_iff.mp (h.trans (Fintype.card_fin k).symm) i
      rw [hended] at hall
      exact absurd hall Bool.false_ne_true
  | gone => trivial

theorem sound_parent (h : Sound a b s) (hmove : ParentMove s t) : Sound a b t := by
  have hagrees := h.agrees
  have hreads := h.reads_eq
  have hdrained := h.drained
  cases hmove with
  | fork_fails i hparent hi =>
      rw [hparent] at hreads
      exact ⟨trivial, h.total_eq, hreads, hdrained⟩
  | fork i hi hparent =>
      rw [hparent] at hagrees hreads
      have hnew : s.child ⟨i, hi⟩ = .unforked := (hagrees.2 ⟨i, hi⟩).mpr (Nat.le_refl i)
      refine ⟨⟨hi, fun j => ?_⟩, ?_, ?_, fun hpos => absurd hnew ((hdrained hpos).2 _).2⟩
      · change Function.update s.child ⟨i, hi⟩ .computing j = .unforked ↔ _
        by_cases hj : j = ⟨i, hi⟩
        · rw [hj, Function.update_self]
          exact ⟨fun h => Child.noConfusion h, fun h => absurd h (Nat.not_succ_le_self i)⟩
        · rw [Function.update_of_ne hj, hagrees.2 j]
          have hne : (j : ℕ) ≠ i := fun heq => hj (Fin.ext heq)
          omega
      · rw [h.total_eq]
        refine (sumOf_update_of_eq ?_).symm
        rw [hnew]
        rfl
      · have hsame : countOf Child.written (Function.update s.child ⟨i, hi⟩ .computing) =
            countOf Child.written s.child := sumOf_update_of_eq (by rw [hnew]; rfl)
        rw [hsame]
        exact hreads
  | forked i hparent hi =>
      rw [hparent] at hagrees hreads
      refine ⟨⟨Nat.zero_le k, fun j hj => ?_⟩, h.total_eq, hreads, hdrained⟩
      have hle := (hagrees.2 j).mp hj
      have hlt := j.isLt
      omega
  | read i partial_result pipe hparent hi hpipe =>
      rw [hparent] at hagrees hreads
      have htotal := h.total_eq
      rw [hpipe, List.sum_cons, ← add_assoc] at htotal
      rw [hpipe, List.length_cons] at hreads
      refine ⟨⟨hi, hagrees.2⟩, htotal, ?_, fun hpos => ?_⟩
      · change i + 1 + pipe.length = countOf Child.written s.child + s.failures
        change i + (pipe.length + 1) = _ at hreads
        omega
      · rw [hpipe] at hdrained
        cases (hdrained hpos).1
  | read_fails i hparent hi hpipe hnobody =>
      rw [hparent] at hagrees hreads
      refine ⟨⟨hi, hagrees.2⟩, h.total_eq, ?_, fun _ => ⟨hpipe, fun j => ⟨hnobody j, hagrees.2 j⟩⟩⟩
      change i + 1 + s.pipe.length = countOf Child.written s.child + (s.failures + 1)
      change i + s.pipe.length = _ at hreads
      omega
  | close i hparent hi =>
      rw [hparent] at hagrees hreads
      have hi : i = k := Nat.le_antisymm hagrees.1 (not_lt.mp hi)
      rw [hi] at hreads
      exact ⟨⟨hagrees.2, Nat.zero_le _⟩, h.total_eq, hreads, hdrained⟩
  | wait i hparent hi hended =>
      rw [hparent] at hagrees hreads
      exact ⟨⟨hagrees.1, hended⟩, h.total_eq, hreads, hdrained⟩
  | done i hparent hi =>
      rw [hparent] at hagrees hreads
      have hall : countOf Child.ended s.child ≤ k := countOf_le.trans_eq (Fintype.card_fin k)
      have hcount : countOf Child.ended s.child = k :=
        Nat.le_antisymm hall ((not_lt.mp hi).trans hagrees.2)
      exact ⟨hcount, h.total_eq, hreads, hdrained⟩

/-- A step of a child that leaves the pipe alone and does not change what the
    child has written. -/
theorem sound_quiet (h : Sound a b s) {i : Fin k} {c : Child} (hforked : s.child i ≠ .unforked)
    (hended : (s.child i).ended = false) (hc : c ≠ .unforked)
    (hwritten : c.written = (s.child i).written)
    (hholds : (s.child i).holds = false → c.holds = false) :
    Sound a b { s with child := Function.update s.child i c } := by
  have hshare : share a b i c = share a b i (s.child i) := by rw [share, share, hwritten]
  have hcount : countOf Child.written (Function.update s.child i c) = countOf Child.written s.child :=
    sumOf_update_of_eq (by rw [hwritten])
  refine ⟨agrees_update h.agrees hforked hended hc, ?_, ?_, fun hpos => ?_⟩
  · rw [sumOf_update_of_eq hshare]
    exact h.total_eq
  · rw [hcount]
    exact h.reads_eq
  · refine ⟨(h.drained hpos).1, fun j => ?_⟩
    change (Function.update s.child i c j).holds = false ∧ Function.update s.child i c j ≠ _
    by_cases hj : j = i
    · rw [hj, Function.update_self]
      exact ⟨hholds ((h.drained hpos).2 i).1, hc⟩
    · rw [Function.update_of_ne hj]
      exact (h.drained hpos).2 j

theorem sound_child (h : Sound a b s) {i : Fin k} (hmove : ChildMove capacity a b s i t) :
    Sound a b t := by
  cases hmove with
  | write hchild _ =>
      have hopen : s.failures = 0 := by
        by_contra hpos
        have hnone := ((h.drained (Nat.pos_of_ne_zero hpos)).2 i).1
        rw [hchild] at hnone
        cases hnone
      have hforked : s.child i ≠ .unforked := by
        rw [hchild]
        intro h
        cases h
      have htally := sumOf_update (g := share a b) (f := s.child) (i := i) (a := .wrote true)
      have hcount := countOf_update (p := Child.written) (f := s.child) (i := i) (a := .wrote true)
      rw [hchild] at htally hcount
      refine ⟨agrees_update h.agrees hforked (by rw [hchild]; rfl) (by intro h; cases h), ?_, ?_,
        fun hpos => absurd hopen hpos.ne'⟩
      · change _ + share a b i .computing = _ + local_result a b k i at htally
        rw [share, if_neg (by decide), add_zero] at htally
        rw [htally, List.sum_append, List.sum_singleton, ← add_assoc, h.total_eq]
      · change _ + 0 = _ + 1 at hcount
        have hreads := h.reads_eq
        rw [List.length_append, List.length_singleton]
        change s.parent.reads k + (s.pipe.length + 1) =
          countOf Child.written (Function.update s.child i (.wrote true)) + s.failures
        omega
  | write_fails hchild =>
      refine sound_quiet h ?_ ?_ ?_ ?_ ?_ <;> simp [hchild, Child.ended, Child.written, Child.holds]
  | close written hchild =>
      refine sound_quiet h ?_ ?_ ?_ ?_ ?_ <;> simp [hchild, Child.ended, Child.written, Child.holds]
  | exit written hchild =>
      refine sound_quiet h ?_ ?_ ?_ ?_ ?_ <;> simp [hchild, Child.ended, Child.written, Child.holds]

theorem sound_step (h : Sound a b s) {e : Event k} (hstep : step capacity a b s e = some t) :
    Sound a b t := by
  rcases step_moves hstep with hmove | ⟨i, hmove⟩
  · exact sound_parent h hmove
  · exact sound_child h hmove

theorem sound_of_reachable (h : Reachable (step capacity a b) (start k) s) : Sound a b s :=
  h.invariant sound_start fun _ _ _ hv _ hstep => sound_step hv hstep

end Invariant

/-- The steps a child has left. -/
def Child.left : Child → ℕ
  | .unforked => 3
  | .computing => 3
  | .wrote _ => 2
  | .closed _ => 1
  | .exited _ => 0

/-- The steps the parent has left. -/
def Parent.left (k : ℕ) : Parent → ℕ
  | .forking i => (k - i) + 1 + (k + 1) + (k + 1)
  | .reading i => (k - i) + 1 + (k + 1)
  | .waiting i => (k - i) + 1
  | .returned => 0
  | .gone => 0

def State.left {k : ℕ} (s : State k) : ℕ :=
  s.parent.left k + sumOf (fun _ c => c.left) s.child

/-- No call fails in the step. -/
def Event.Succeeds {k : ℕ} : Event k → Prop
  | .parent fails => fails = false
  | .child _ written => written = true

section Progress

variable {capacity k : ℕ} {a b : ℚ} {s t : State k}

theorem left_parent (h : Sound a b s) (hmove : ParentMove s t) : t.left < s.left := by
  have hagrees := h.agrees
  have hnear : ∀ p : Parent, p.left k < s.parent.left k →
      p.left k + sumOf (fun _ c => c.left) s.child <
        s.parent.left k + sumOf (fun _ c => c.left) s.child :=
    fun p hless => Nat.add_lt_add_right hless _
  cases hmove with
  | fork_fails i hparent hi =>
      refine hnear .gone ?_
      rw [hparent, Parent.left, Parent.left]
      omega
  | fork i hi hparent =>
      rw [hparent] at hagrees
      have hnew : s.child ⟨i, hi⟩ = .unforked := (hagrees.2 ⟨i, hi⟩).mpr (Nat.le_refl i)
      have hsame : sumOf (fun _ c => c.left) (Function.update s.child ⟨i, hi⟩ .computing) =
          sumOf (fun _ c => c.left) s.child := sumOf_update_of_eq (by rw [hnew]; rfl)
      rw [State.left, State.left, hparent, hsame, Parent.left, Parent.left]
      omega
  | forked i hparent hi =>
      refine hnear (.reading 0) ?_
      rw [hparent, Parent.left, Parent.left]
      omega
  | read i partial_result pipe hparent hi hpipe =>
      refine hnear (.reading (i + 1)) ?_
      rw [hparent, Parent.left, Parent.left]
      omega
  | read_fails i hparent hi hpipe hnobody =>
      refine hnear (.reading (i + 1)) ?_
      rw [hparent, Parent.left, Parent.left]
      omega
  | close i hparent hi =>
      refine hnear (.waiting 0) ?_
      rw [hparent, Parent.left, Parent.left]
      omega
  | wait i hparent hi hended =>
      refine hnear (.waiting (i + 1)) ?_
      rw [hparent, Parent.left, Parent.left]
      omega
  | done i hparent hi =>
      refine hnear .returned ?_
      rw [hparent, Parent.left, Parent.left]
      omega

theorem left_child {i : Fin k} (hmove : ChildMove capacity a b s i t) : t.left < s.left := by
  have hupdate : ∀ c : Child, c.left < (s.child i).left →
      s.parent.left k + sumOf (fun _ c => c.left) (Function.update s.child i c) <
        s.parent.left k + sumOf (fun _ c => c.left) s.child := by
    intro c hless
    have hsum := sumOf_update (g := fun _ (c : Child) => c.left) (f := s.child) (i := i) (a := c)
    change _ + (s.child i).left = _ + c.left at hsum
    omega
  cases hmove with
  | write hchild _ => exact hupdate (.wrote true) (by rw [hchild]; decide)
  | write_fails hchild => exact hupdate (.wrote false) (by rw [hchild]; decide)
  | close written hchild =>
      exact hupdate (.closed written) (by rw [hchild]; exact Nat.lt_succ_self 1)
  | exit written hchild => exact hupdate (.exited written) (by rw [hchild]; exact Nat.one_pos)

theorem step_left (h : Sound a b s) {e : Event k} (hstep : step capacity a b s e = some t) :
    t.left < s.left := by
  rcases step_moves hstep with hmove | ⟨i, hmove⟩
  · exact left_parent h hmove
  · exact left_child hmove

theorem left_start : (start k).left = 6 * k + 3 := by
  have hsum : sumOf (fun _ (c : Child) => c.left) (start k).child = k * 3 := by
    change ∑ _i : Fin k, 3 = k * 3
    rw [Finset.sum_const, Finset.card_univ, Fintype.card_fin, Nat.nsmul_eq_mul]
  rw [State.left, hsum, start, Parent.left]
  omega

/-- A child that has the pipe, which is not full, or has closed it goes on. -/
theorem child_goes_on (hroom : s.pipe.length < capacity) {i : Fin k}
    (hforked : s.child i ≠ .unforked) (hended : (s.child i).ended = false) :
    ∃ e : Event k, e.Succeeds ∧ (step capacity a b s e).isSome = true := by
  refine ⟨.child i true, rfl, ?_⟩
  change (child capacity a b s i true).isSome = true
  unfold child
  cases hchild : s.child i with
  | unforked => exact absurd hchild hforked
  | computing =>
      simp only [if_true]
      rw [if_pos hroom]
      rfl
  | wrote written => rfl
  | closed written => rfl
  | exited written =>
      rw [hchild] at hended
      cases hended

/-- Until `integrate` returns somebody can take a step, and one in which no call
    fails. If the parent waits, the pipe is empty, so that the child it waits for
    is not held up. -/
theorem goes_on (hcapacity : 0 < capacity) (h : Sound a b s) (hgone : s.parent ≠ .gone)
    (hreturned : s.parent ≠ .returned) :
    ∃ e : Event k, e.Succeeds ∧ (step capacity a b s e).isSome = true := by
  have hagrees := h.agrees
  have hreads := h.reads_eq
  have hparent : (parent s false).isSome = true → ∃ e : Event k, e.Succeeds ∧
      (step capacity a b s e).isSome = true := fun hsome => ⟨.parent false, rfl, hsome⟩
  cases hplace : s.parent with
  | forking i =>
      by_cases hi : i < k
      · exact hparent (by simp [parent, hplace, hi])
      · exact hparent (by simp [parent, hplace, hi])
  | reading i =>
      rw [hplace] at hagrees
      by_cases hi : i < k
      · cases hpipe : s.pipe with
        | cons partial_result pipe => exact hparent (by simp [parent, hplace, hi, hpipe])
        | nil =>
            by_cases hholds : ∃ j, (s.child j).holds = true
            · rcases hholds with ⟨j, hj⟩
              refine child_goes_on (by rw [hpipe]; exact hcapacity) (hagrees.2 j) ?_
              cases hc : s.child j <;> rw [hc] at hj <;> first | rfl | cases hj
            · exact hparent (by simp [parent, hplace, hi, hpipe, hholds])
      · exact hparent (by simp [parent, hplace, hi])
  | waiting i =>
      rw [hplace] at hagrees hreads
      by_cases hi : i < k
      · by_cases hended : i < countOf Child.ended s.child
        · exact hparent (by simp [parent, hplace, hi, hended])
        · have hempty : s.pipe.length = 0 := by
            by_cases hfailures : 0 < s.failures
            · rw [(h.drained hfailures).1, List.length_nil]
            · have hall : countOf Child.written s.child ≤ k :=
                countOf_le.trans_eq (Fintype.card_fin k)
              change k + s.pipe.length = _ at hreads
              omega
          have hnotall : ¬ ∀ j, (s.child j).ended = true := by
            intro hall
            have hcount := countOf_eq_card_iff.mpr hall
            rw [Fintype.card_fin] at hcount
            omega
          rcases not_forall.mp hnotall with ⟨j, hj⟩
          exact child_goes_on (by omega) (hagrees.1 j) (Bool.eq_false_iff.mpr hj)
      · exact hparent (by simp [parent, hplace, hi])
  | returned => exact absurd hplace hreturned
  | gone => exact absurd hplace hgone

end Progress

section Returned

variable {capacity k : ℕ} {a b : ℚ} {s : State k}

/-- The results of all the children are the trapezoids over the whole interval. -/
theorem sum_local_result :
    ∑ i : Fin k, local_result a b k i = trapezoids function ((b - a) / k) a k := by
  refine Finset.sum_nbij Fin.val (fun i _ => Finset.mem_range.mpr i.isLt)
    (fun i _ j _ h => Fin.ext h) (fun n hn => ?_) fun i _ => rfl
  exact ⟨⟨n, Finset.mem_range.mp hn⟩, Finset.mem_coe.mpr (Finset.mem_univ _), rfl⟩

theorem ended_eq {c : Child} (h : c.ended = true) : c = .exited c.written := by
  cases c with
  | exited written => rfl
  | _ => cases h

/-- After the last `read` the pipe is empty. -/
theorem pipe_empty (h : Sound a b s) (hreturned : s.parent = .returned) : s.pipe = [] := by
  by_cases hfailures : 0 < s.failures
  · exact (h.drained hfailures).1
  · have hreads := h.reads_eq
    have hall : countOf Child.written s.child ≤ k := countOf_le.trans_eq (Fintype.card_fin k)
    rw [hreturned] at hreads
    change k + s.pipe.length = _ at hreads
    exact List.length_eq_zero_iff.mp (by omega)

theorem returned_ended (h : Sound a b s) (hreturned : s.parent = .returned) (i : Fin k) :
    (s.child i).ended = true := by
  have hagrees := h.agrees
  rw [hreturned] at hagrees
  exact countOf_eq_card_iff.mp (hagrees.trans (Fintype.card_fin k).symm) i

theorem returned_total (h : Sound a b s) (hreturned : s.parent = .returned) :
    s.total = ∑ i, (if s.child i = .exited true then local_result a b k i else 0) := by
  have hsum := h.total_eq
  rw [pipe_empty h hreturned, List.sum_nil, add_zero] at hsum
  rw [hsum]
  refine Finset.sum_congr rfl fun i _ => ?_
  rw [share, ended_eq (returned_ended h hreturned i)]
  cases (s.child i).written <;> rfl

theorem returned_failures (h : Sound a b s) (hreturned : s.parent = .returned) :
    s.failures = countOf (fun c => decide (c = .exited false)) s.child := by
  have hreads := h.reads_eq
  have hsplit := countOf_add_countOf (p := Child.written) (f := s.child)
  have hnot : countOf (fun c => !c.written) s.child =
      countOf (fun c => decide (c = .exited false)) s.child := by
    refine sumOf_congr fun i => congrArg Bool.toNat ?_
    rw [ended_eq (returned_ended h hreturned i)]
    cases (s.child i).written <;> decide
  rw [hreturned, pipe_empty h hreturned, List.length_nil] at hreads
  rw [Fintype.card_fin] at hsplit
  change k + 0 = _ at hreads
  omega

theorem returned_trapezoids (h : Sound a b s) (hreturned : s.parent = .returned)
    (hall : ∀ i, s.child i = .exited true) :
    s.total = trapezoids function ((b - a) / k) a k := by
  rw [returned_total h hreturned, ← sum_local_result]
  exact Finset.sum_congr rfl fun i _ => if_pos (hall i)

end Returned

/-- When `integrate` returns, all its children have exited, the total is the sum
    of the results that have been written, and a `read` has failed for each of
    the others. So if all have been written it is the trapezoid rule, whatever
    the order in which the children finish. -/
theorem total_eq_written (capacity k : ℕ) (a b : ℚ) (s : State k)
    (h : Reachable (step capacity a b) (start k) s) (hreturned : s.parent = .returned) :
    (∀ i, (s.child i).ended = true) ∧
    s.total = ∑ i, (if s.child i = .exited true then local_result a b k i else 0) ∧
    s.failures = countOf (fun c => decide (c = .exited false)) s.child ∧
    ((∀ i, s.child i = .exited true) → s.total = trapezoids function ((b - a) / k) a k) := by
  have hs := sound_of_reachable h
  exact ⟨returned_ended hs hreturned, returned_total hs hreturned, returned_failures hs hreturned,
    returned_trapezoids hs hreturned⟩

section Two

/-- Two children that finish in the other order, and what becomes of the first
    one's `write`. -/
def two (i j : Fin 2) (written : Bool) : List (Event 2) :=
  [.parent false, .parent false, .child j true, .parent false, .child j true, .parent false,
    .child i written, .child i true, .parent false, .child i true, .parent false, .child j true,
    .parent false, .parent false, .parent false]

theorem reachable_two (written : Bool) :
    ∃ s, Reachable (step 1 0 1) (start 2) s ∧ s.parent = .returned ∧
      s.child 0 = .exited written ∧ s.child 1 = .exited true := by
  have hrun : ∃ s, run (step 1 0 1) (start 2) (two 0 1 written) = some s ∧ s.parent = .returned ∧
      s.child 0 = .exited written ∧ s.child 1 = .exited true := by
    cases written with
    | true => exact ⟨_, rfl, rfl, rfl, rfl⟩
    | false => exact ⟨_, rfl, rfl, rfl, rfl⟩
  rcases hrun with ⟨s, hrun, hrest⟩
  exact ⟨s, reachable_of_run hrun, hrest⟩

/-- If the first one's `write` fails, the total is the result of the second. -/
theorem total_eq_written_two :
    ∃ s, Reachable (step 1 0 1) (start 2) s ∧ s.total = 13 / 10 ∧ s.failures = 1 := by
  rcases reachable_two false with ⟨s, hreach, hreturned, hfirst, hsecond⟩
  rcases total_eq_written 1 2 0 1 s hreach hreturned with ⟨_, htotal, hfailures, _⟩
  refine ⟨s, hreach, ?_, ?_⟩
  · have hshares : s.total = 0 + (local_result 0 1 2 1 + 0) := by
      rw [htotal]
      change (if s.child 0 = _ then local_result 0 1 2 0 else 0) +
        ((if s.child 1 = _ then local_result 0 1 2 1 else 0) + 0) = _
      rw [hfirst, hsecond, if_neg (by decide), if_pos rfl]
    rw [hshares]
    norm_num [local_result, integrate_dx, function]
  · rw [hfailures]
    change (decide (s.child 0 = _)).toNat + ((decide (s.child 1 = _)).toNat + 0) = 1
    rw [hfirst, hsecond]
    rfl

end Two

/-- `integrate` returns: no run has more than `6 * k + 3` steps, and as long as it
    has not returned and no `fork` has failed, somebody can take a step, even if
    the pipe has room for a single result. -/
theorem always_returns (capacity k : ℕ) (a b : ℚ) (hcapacity : 0 < capacity) (s : State k)
    (es : List (Event k)) (hrun : run (step capacity a b) (start k) es = some s) :
    es.length ≤ 6 * k + 3 ∧
    (s.parent ≠ .gone → s.parent ≠ .returned →
      ∃ e : Event k, e.Succeeds ∧ (step capacity a b s e).isSome = true) := by
  constructor
  · have hbound : s.left + es.length ≤ (start k).left :=
      run_length_le State.left (fun _ _ _ hv hstep => ⟨sound_step hv hstep, step_left hv hstep⟩)
        sound_start hrun
    rw [left_start] at hbound
    omega
  · exact goes_on hcapacity (sound_of_reachable (reachable_of_run hrun))

/-- The pipe has room for one result and is full, so the second child waits, and
    the parent, which has read nothing yet, can go on. Then it reads, and waits in
    turn for the second result. -/
theorem always_returns_two :
    (∃ s, run (step 1 0 1) (start 2) [.parent false, .parent false, .child 0 true] = some s ∧
      step 1 0 1 s (.child 1 true) = none ∧
      ∃ e : Event 2, e.Succeeds ∧ (step 1 0 1 s e).isSome = true) ∧
    ∃ s, run (step 1 0 1) (start 2) [.parent false, .parent false, .child 0 true, .parent false,
        .parent false] = some s ∧
      step 1 0 1 s (.parent false) = none ∧
      ∃ e : Event 2, e.Succeeds ∧ (step 1 0 1 s e).isSome = true := by
  have hfull : ∃ s, run (step 1 0 1) (start 2) [.parent false, .parent false, .child 0 true] =
      some s ∧ step 1 0 1 s (.child 1 true) = none ∧ s.parent = .forking 2 :=
    ⟨_, rfl, rfl, rfl⟩
  have hempty : ∃ s, run (step 1 0 1) (start 2) [.parent false, .parent false, .child 0 true,
      .parent false, .parent false] = some s ∧ s.pipe = [] ∧ s.child 1 = .computing ∧
      s.parent = .reading 1 :=
    ⟨_, rfl, rfl, rfl, rfl⟩
  rcases hfull with ⟨s, hrun, hchild, hparent⟩
  rcases hempty with ⟨s', hrun', hpipe, hcomputing, hparent'⟩
  refine ⟨⟨s, hrun, hchild, (always_returns 1 2 0 1 Nat.one_pos s _ hrun).2 ?_ ?_⟩,
    s', hrun', ?_, (always_returns 1 2 0 1 Nat.one_pos s' _ hrun').2 ?_ ?_⟩
  · simp [hparent]
  · simp [hparent]
  · have hholds : ∃ j, (s'.child j).holds = true := ⟨1, by rw [hcomputing]; rfl⟩
    simp [step, parent, hparent', hpipe, hholds]
  · simp [hparent']
  · simp [hparent']

/-- The children together against a single worker of `integrator` with rectangles
    of the same width: they differ by the triangle between the heights at the
    ends of the interval. -/
theorem total_eq_integrate_range (capacity k : ℕ) (a b : ℚ)
    (hdx : 0 < (b - a) / k) (s : State k)
    (h : Reachable (step capacity a b) (start k) s) (hreturned : s.parent = .returned)
    (hall : ∀ i, s.child i = .exited true) :
    s.total = Integrator.integrate_range a b ((b - a) / k) hdx -
      (function a - function b) / 2 * ((b - a) / k) := by
  have hk : (k : ℚ) ≠ 0 := by
    intro hzero
    rw [hzero, div_zero] at hdx
    exact lt_irrefl 0 hdx
  have hwidth : k * ((b - a) / k) = b - a := mul_div_cancel₀ (b - a) hk
  rw [returned_trapezoids (sound_of_reachable h) hreturned hall, trapezoids_eq_rectangles, hwidth,
    add_sub_cancel, Integrator.integrate_range_eq, needed_of_fit hdx hwidth]
  rfl

theorem total_eq_integrate_range_two : ∃ s, Reachable (step 1 0 1) (start 2) s ∧
    ∃ hdx, s.total = Integrator.integrate_range 0 1 ((1 - 0) / (2 : ℕ)) hdx - 1 / 2 := by
  rcases reachable_two true with ⟨s, hreach, hreturned, hfirst, hsecond⟩
  have hdx : (0 : ℚ) < (1 - 0) / (2 : ℕ) := by norm_num
  have hall : ∀ i, s.child i = .exited true := Fin.forall_fin_two.mpr ⟨hfirst, hsecond⟩
  refine ⟨s, hreach, hdx, ?_⟩
  rw [total_eq_integrate_range 1 2 0 1 hdx s hreach hreturned hall]
  norm_num [function]

end Forking

end Lab5

end OsLabs
