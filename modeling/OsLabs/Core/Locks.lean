import Mathlib.Data.Nat.Init
import Mathlib.Logic.Relation

/-!
# Threads That Wait for Locks

Threads that take locks, at one moment: which lock each thread is about to
take, and which locks it has. A thread waits for another one when the other
has the lock it wants, and a circle of such threads is a deadlock.

The classic way to have no circles is to order the locks and to take them in
that order only. `not_circularWait_of_rank` is that argument. The order is only
asked of the moment it is applied to, so a program in which the order depends
on where its threads are can use it too, with another order in every state.

## Main definitions

* `WaitsFor`: A thread wants a lock another one has.
* `CircularWait`: A circle of threads that wait, each for the next.

## Theorems

* `not_circularWait_of_rank`: Locks taken in order lead into no circle.
* `circularWait_of_two`: Two threads that wait for each other.
-/

namespace OsLabs

section Waiting

variable {τ μ : Type*} {wants : τ → Option μ} {holds : τ → μ → Bool}

/-- The first thread wants a lock that the second has. -/
def WaitsFor (wants : τ → Option μ) (holds : τ → μ → Bool) (t u : τ) : Prop :=
  ∃ m, wants t = some m ∧ holds u m = true

/-- A circle of threads, each waiting for the next. -/
def CircularWait (wants : τ → Option μ) (holds : τ → μ → Bool) : Prop :=
  ∃ t, Relation.TransGen (WaitsFor wants holds) t t

/-- Along a chain of waiting threads the locks wanted go up in the order. -/
theorem wanted_rank_lt (rank : μ → Nat)
    (hrank : ∀ t m n, wants t = some m → holds t n = true → rank n < rank m) {t u : τ}
    (hchain : Relation.TransGen (WaitsFor wants holds) t u) {m n : μ} (hm : wants t = some m)
    (hn : wants u = some n) : rank m < rank n := by
  -- The next thread has what this one wants, and wants something above it.
  induction hchain generalizing n with
  | single hwait =>
      rcases hwait with ⟨k, hk, hholds⟩
      rw [hm] at hk
      rw [Option.some.inj hk]
      exact hrank _ n k hn hholds
  | tail _ hwait ih =>
      rcases hwait with ⟨k, hk, hholds⟩
      exact Nat.lt_trans (ih hk) (hrank _ n k hn hholds)

/-- If the locks can be ordered such that nobody wants a lock below one it has,
    there is no circle. -/
theorem not_circularWait_of_rank (rank : μ → Nat)
    (hrank : ∀ t m n, wants t = some m → holds t n = true → rank n < rank m) :
    ¬ CircularWait wants holds := by
  rintro ⟨t, hchain⟩
  -- Round the circle the lock wanted would be above itself.
  rcases Relation.TransGen.head'_iff.mp hchain with ⟨u, ⟨m, hm, _⟩, _⟩
  exact Nat.lt_irrefl _ (wanted_rank_lt rank hrank hchain hm hm)

/-- Two threads, each of which has the lock the other wants. -/
theorem circularWait_of_two {t u : τ} {m n : μ} (htm : wants t = some m)
    (hum : holds u m = true) (hun : wants u = some n) (htn : holds t n = true) :
    CircularWait wants holds :=
  ⟨t, Relation.TransGen.tail (Relation.TransGen.single ⟨m, htm, hum⟩) ⟨n, hun, htn⟩⟩

end Waiting

end OsLabs
