import OsLabs.Core.Rectangles
import OsLabs.Core.Run
import Mathlib.Algebra.Order.Field.Rat
import Mathlib.Data.Rat.Floor
import Mathlib.Tactic.NormNum

/-!
# The Integral by Many Workers

`integrator` computes the integral of `4 / (x * x + 1)` over [0, 1] again and
again, with one worker, with two, and so on. Each worker has a part of the
interval and a pipe of its own, and the parent reads the pipes in the order in
which it has made them, so the order in which the workers finish does not
matter: `total_result` is the sum of the parts. The numbers are exact here.

A worker covers its part with whole rectangles, the last of which may stand out.
That is the rectangle rule the program uses for the whole interval as well, but
with many workers there are many last rectangles. `printed_eq_iff` is what this
comes to: every line printed is at least what a single worker computes, and the
same only if rectangles of the width given fit into a part.

## Main definitions

* `function`, `integrate_range`: As in the source, over the rationals.
* `State`, `step`: The parent and the workers it has for one line.
* `Sound`: What the workers have written, what the parent has read and printed.

## Theorems

* `integrate_range_eq`: The loop adds up the rectangles that are needed.
* `sound_step`: Every step in which no `write` fails keeps the invariant.
* `finishes`: The program can go on to the last line.
* `total_eq_iff`: Many workers against one.
* `printed_eq_iff`: The lines printed.
* `printed_two`: A line with two workers that is not the one with a single
  worker.
-/

namespace OsLabs

namespace Lab5

namespace Integrator

def function (x : ℚ) : ℚ := 4 / (x * x + 1)

/-- The loop from `x` on, which ends because `dx` is positive. -/
def integrateLoop (stop dx : ℚ) (hdx : 0 < dx) (x sum : ℚ) : ℚ :=
  if x < stop then
    integrateLoop stop dx hdx (x + dx) (sum + function x * dx)
  else sum
termination_by needed dx (stop - x)
decreasing_by
  have hless := needed_sub_add_one hdx (sub_pos.mpr ‹x < stop›)
  rw [← sub_sub]
  omega

def integrate_range (start stop dx : ℚ) (hdx : 0 < dx) : ℚ := integrateLoop stop dx hdx start 0

/-- A worker and its pipe. -/
inductive Worker
  | computing
  /-- It has closed the pipe, with what it has written before. -/
  | exited (written : Option ℚ)
  deriving DecidableEq

structure State where
  /-- The number of workers for the next line. -/
  k : ℕ
  /-- Those that have been started for it. -/
  workers : List Worker
  /-- How many pipes the parent has read. -/
  read : ℕ
  total_result : ℚ
  /-- The lines, each the number of workers and the result. -/
  printed : List (ℕ × ℚ)

def start : State := { k := 1, workers := [], read := 0, total_result := 0, printed := [] }

inductive Event
  /-- The parent makes a pipe and starts a worker. -/
  | fork
  /-- A worker has its result and exits; `write` may fail. -/
  | finish (i : ℕ) (written : Bool)
  /-- The parent reads the next pipe. -/
  | read
  /-- It has waited for all the workers and prints the line. -/
  | print

section Program

variable (n : ℕ) (dx : ℚ) (hdx : 0 < dx)

/-- What the worker number `i` of `k` computes. -/
def local_result (k i : ℕ) : ℚ :=
  let interval : ℚ := 1 / k
  integrate_range (i * interval) ((i + 1) * interval) dx hdx

/-- `main` for up to `n` workers. The parent waits in `read` until the worker
    has closed the pipe. -/
def step (s : State) : Event → Option State
  | .fork =>
      if s.k ≤ n ∧ s.workers.length < s.k then
        some { s with workers := s.workers ++ [.computing] }
      else none
  | .finish i written =>
      if s.workers[i]? = some .computing then
        some { s with
          workers := s.workers.set i
            (.exited (if written then some (local_result dx hdx s.k i) else none)) }
      else none
  | .read =>
      if s.workers.length = s.k then
        match s.workers[s.read]? with
        | some (.exited partial_result) =>
            some { s with
              read := s.read + 1
              total_result := s.total_result + partial_result.getD 0 }
        | _ => none
      else none
  | .print =>
      if s.workers.length = s.k ∧ s.read = s.k then
        some { s with
          k := s.k + 1
          workers := []
          read := 0
          total_result := 0
          printed := s.printed ++ [(s.k, s.total_result)] }
      else none

end Program

/-- No `write` fails. -/
def Event.Written : Event → Prop
  | .finish _ written => written = true
  | _ => True

instance decidableWritten : ∀ e : Event, Decidable e.Written
  | .finish _ written => inferInstanceAs (Decidable (written = true))
  | .fork => isTrue trivial
  | .read => isTrue trivial
  | .print => isTrue trivial

/-- The sum of the parts. -/
def total (dx : ℚ) (hdx : 0 < dx) (k : ℕ) : ℚ :=
  ∑ i ∈ Finset.range k, local_result dx hdx k i

structure Sound (n : ℕ) (dx : ℚ) (hdx : 0 < dx) (s : State) : Prop where
  exited : ∀ i written, s.workers[i]? = some (.exited written) →
    written = some (local_result dx hdx s.k i)
  total_eq : s.total_result = ∑ i ∈ Finset.range s.read, local_result dx hdx s.k i
  read_le : s.read ≤ s.workers.length
  workers_le : s.workers.length ≤ s.k
  k_pos : 0 < s.k
  k_le : s.k ≤ n + 1
  forked : 0 < s.workers.length → s.k ≤ n
  printed_eq : s.printed = (List.range' 1 (s.k - 1)).map fun k => (k, total dx hdx k)

section Loop

variable {dx : ℚ} {hdx : 0 < dx}

/-- From `x` on the loop adds the rectangles that are needed to come to the end. -/
theorem integrateLoop_eq (stop : ℚ) (n : ℕ) : ∀ x sum, needed dx (stop - x) = n →
    integrateLoop stop dx hdx x sum = sum + rectangles function dx x n := by
  induction n with
  | zero =>
      intro x sum hn
      have hend : ¬ x < stop := fun h => (needed_pos hdx (sub_pos.mpr h)).ne' hn
      rw [integrateLoop, if_neg hend, rectangles_zero, add_zero]
  | succ n ih =>
      intro x sum hn
      have hlt : x < stop := by
        by_contra hge
        have hnone : needed dx (stop - x) ≤ 0 := needed_le hdx (by
          rw [Nat.cast_zero, zero_mul]
          exact sub_nonpos.mpr (not_lt.mp hge))
        omega
      have hless := needed_sub_add_one hdx (sub_pos.mpr hlt)
      rw [hn, sub_sub] at hless
      rw [integrateLoop, if_pos hlt, ih _ _ (by omega), rectangles_succ, add_assoc]

theorem integrate_range_eq (start stop : ℚ) :
    integrate_range start stop dx hdx =
      rectangles function dx start (needed dx (stop - start)) := by
  rw [integrate_range, integrateLoop_eq stop _ start 0 rfl, zero_add]

/-- The last rectangle of every part may stand out in the same way. -/
theorem local_result_eq (k i : ℕ) :
    local_result dx hdx k i = rectangles function dx (i * (1 / k)) (needed dx (1 / k)) := by
  unfold local_result
  rw [integrate_range_eq, add_mul, one_mul, add_sub_cancel_left]

end Loop

section Function

/-- The function falls on the right of zero. -/
theorem function_strictAntiOn : StrictAntiOn function (Set.Ici 0) := by
  intro x hx y _ hxy
  have hsquare : x * x < y * y := mul_self_lt_mul_self hx hxy
  have hpos : 0 < x * x + 1 := add_pos_of_nonneg_of_pos (mul_self_nonneg x) one_pos
  exact div_lt_div_of_pos_left four_pos hpos ((add_lt_add_iff_right 1).mpr hsquare)

theorem function_nonneg (x : ℚ) (_ : 0 ≤ x) : 0 ≤ function x :=
  div_nonneg zero_le_four (add_nonneg (mul_self_nonneg x) zero_le_one)

variable {dx : ℚ} {hdx : 0 < dx} {k : ℕ}

/-- One worker has all of the interval. -/
theorem integrate_range_whole (hk : 0 < k) :
    integrate_range 0 1 dx hdx = rectangles function dx 0 (needed dx (k * (1 / k))) := by
  have hcast : (k : ℚ) ≠ 0 := Nat.cast_ne_zero.mpr hk.ne'
  rw [integrate_range_eq, sub_zero, mul_one_div_cancel hcast]

theorem total_eq_sum :
    total dx hdx k =
      ∑ i ∈ Finset.range k, rectangles function dx (i * (1 / k)) (needed dx (1 / k)) :=
  Finset.sum_congr rfl fun i _ => local_result_eq k i

/-- Many workers never have less than one. -/
theorem le_total (hk : 0 < k) : integrate_range 0 1 dx hdx ≤ total dx hdx k := by
  have hwidth : (0 : ℚ) < 1 / k := one_div_pos.mpr (Nat.cast_pos.mpr hk)
  rw [integrate_range_whole hk, total_eq_sum]
  exact le_sum_parts function_strictAntiOn.antitoneOn function_nonneg hdx hwidth k

/-- They have the same exactly if the rectangles fit into a part. -/
theorem total_eq_iff (hk : 0 < k) :
    total dx hdx k = integrate_range 0 1 dx hdx ↔ k = 1 ∨ ∃ m : ℕ, m * dx = 1 / k := by
  have hwidth : (0 : ℚ) < 1 / k := one_div_pos.mpr (Nat.cast_pos.mpr hk)
  rw [integrate_range_whole hk, total_eq_sum]
  exact sum_parts_eq_iff function_strictAntiOn function_nonneg hdx hwidth hk

end Function

section Program

variable {n : ℕ} {dx : ℚ} {hdx : 0 < dx} {s t : State}

theorem sound_start : Sound n dx hdx start where
  exited i written hi := by cases hi
  total_eq := (Finset.sum_range_zero _).symm
  read_le := le_rfl
  workers_le := Nat.zero_le _
  k_pos := Nat.one_pos
  forked h := absurd h (Nat.lt_irrefl 0)
  k_le := Nat.le_add_left 1 n
  printed_eq := rfl

/-- Every step in which no `write` fails keeps the invariant, whichever worker
    it is that finishes. -/
theorem sound_step (h : Sound n dx hdx s) {e : Event} (hok : e.Written)
    (hstep : step n dx hdx s e = some t) : Sound n dx hdx t := by
  have hread := h.read_le
  have hworkers := h.workers_le
  cases e with
  | fork =>
      rw [step, Option.ite_none_right_eq_some, Option.some.injEq] at hstep
      rcases hstep with ⟨⟨hle, hroom⟩, rfl⟩
      refine { h with exited := fun i written hi => ?_, read_le := ?_, workers_le := ?_,
                      forked := fun _ => hle }
      · rw [List.getElem?_append] at hi
        split_ifs at hi with hold
        · exact h.exited i written hi
        · rcases List.mem_singleton.mp (List.mem_of_getElem? hi) with ⟨⟩
      · rw [List.length_append]
        exact Nat.le_add_right_of_le hread
      · rw [List.length_append]
        exact hroom
  | finish i written =>
      rw [step, Option.ite_none_right_eq_some, Option.some.injEq] at hstep
      rcases hstep with ⟨hcomputing, rfl⟩
      -- The value is in the pipe.
      change written = true at hok
      rw [if_pos hok]
      refine { h with exited := fun j r hj => ?_, read_le := ?_, workers_le := ?_,
                      forked := fun hpos => h.forked ?_ }
      · rw [List.getElem?_set] at hj
        split_ifs at hj with hij hlt
        · cases hj
          rw [hij]
        · exact h.exited j r hj
      · rw [List.length_set]
        exact hread
      · rw [List.length_set]
        exact hworkers
      · rwa [List.length_set] at hpos
  | read =>
      rw [step, Option.ite_none_right_eq_some] at hstep
      rcases hstep with ⟨_, hstep⟩
      split at hstep
      · rename_i partial_result hpipe
        cases hstep
        have hvalue := h.exited s.read partial_result hpipe
        have hlt : s.read < s.workers.length := (List.getElem?_eq_some_iff.mp hpipe).1
        refine { h with total_eq := ?_, read_le := hlt }
        rw [Finset.sum_range_succ, ← h.total_eq, hvalue, Option.getD_some]
      · cases hstep
  | print =>
      rw [step, Option.ite_none_right_eq_some, Option.some.injEq] at hstep
      rcases hstep with ⟨⟨hall, hdone⟩, rfl⟩
      have hpos := h.k_pos
      refine ⟨fun i written hi => ?_, (Finset.sum_range_zero _).symm, le_rfl, Nat.zero_le _,
        Nat.succ_pos _, Nat.succ_le_succ (h.forked (hall ▸ hpos)),
        fun hnone => absurd hnone (Nat.lt_irrefl 0), ?_⟩
      · cases hi
      · have hrange : List.range' 1 s.k = List.range' 1 (s.k - 1) ++ [s.k] := by
          rcases Nat.exists_eq_succ_of_ne_zero hpos.ne' with ⟨k, hk⟩
          rw [hk, List.range'_1_concat, Nat.succ_sub_one, Nat.add_comm]
        change s.printed ++ [(s.k, s.total_result)] = (List.range' 1 s.k).map _
        rw [hrange, List.map_append, ← h.printed_eq, h.total_eq, hdone]
        rfl

theorem sound_of_reaches (h : Reaches (step n dx hdx) (fun _ e => e.Written) start s) :
    Sound n dx hdx s :=
  h.invariant sound_start fun _ _ _ hv hok hstep => sound_step hv hok hstep

/-- A pipe that has been closed can be read. -/
theorem reads_next (hall : s.workers.length = s.k) {written : Option ℚ}
    (hpipe : s.workers[s.read]? = some (.exited written)) :
    ∃ t, Reaches (step n dx hdx) (fun _ e => e.Written) s t ∧ t.k = s.k ∧
      t.workers.length = s.workers.length ∧ t.read = s.read + 1 := by
  refine ⟨_, Reaches.step s { s with
      read := s.read + 1
      total_result := s.total_result + written.getD 0 } .read Reaches.refl trivial ?_,
    rfl, rfl, rfl⟩
  rw [step, if_pos hall, hpipe]

/-- So can that of a worker that is not done yet, if it goes on. -/
theorem reads_computing (hall : s.workers.length = s.k)
    (hcomputing : s.workers[s.read]? = some .computing) :
    ∃ t, Reaches (step n dx hdx) (fun _ e => e.Written) s t ∧ t.k = s.k ∧
      t.workers.length = s.workers.length ∧ t.read = s.read + 1 := by
  let u : State := { s with
    workers := s.workers.set s.read (.exited (some (local_result dx hdx s.k s.read))) }
  have hfinish : Reaches (step n dx hdx) (fun _ e => e.Written) s u :=
    Reaches.step s u (.finish s.read true) Reaches.refl rfl (if_pos hcomputing)
  have hlength : u.workers.length = s.workers.length := List.length_set
  have hpipe : u.workers[u.read]? = some (.exited (some (local_result dx hdx s.k s.read))) :=
    List.getElem?_set_self (List.getElem?_eq_some_iff.mp hcomputing).1
  have hnext : ∃ t, Reaches (step n dx hdx) (fun _ e => e.Written) u t ∧ t.k = u.k ∧
      t.workers.length = u.workers.length ∧ t.read = u.read + 1 :=
    reads_next (hlength.trans hall) hpipe
  rcases hnext with ⟨t, hread, hk, hworkers, hnext⟩
  exact ⟨t, hfinish.trans hread, hk, hworkers.trans hlength, hnext⟩

/-- Unless it has printed the last line the program can come nearer to it: it
    starts the next worker, reads the next pipe once that worker is done, or
    prints the line. -/
theorem goes_on (h : Sound n dx hdx s) (hk : s.k ≤ n) :
    ∃ t, Reaches (step n dx hdx) (fun _ e => e.Written) s t ∧
      ((t.k = s.k ∧ s.workers.length + s.read < t.workers.length + t.read) ∨ t.k = s.k + 1) := by
  by_cases hroom : s.workers.length < s.k
  · refine ⟨_, Reaches.step s _ .fork Reaches.refl trivial (if_pos ⟨hk, hroom⟩), Or.inl ⟨rfl, ?_⟩⟩
    change _ < (s.workers ++ [Worker.computing]).length + s.read
    rw [List.length_append, List.length_singleton]
    omega
  · have hall : s.workers.length = s.k := Nat.le_antisymm h.workers_le (not_lt.mp hroom)
    by_cases hread : s.read < s.workers.length
    · have hnext : ∃ t, Reaches (step n dx hdx) (fun _ e => e.Written) s t ∧ t.k = s.k ∧
          t.workers.length = s.workers.length ∧ t.read = s.read + 1 := by
        cases hw : s.workers[s.read] with
        | computing => exact reads_computing hall (List.getElem?_eq_some_iff.mpr ⟨hread, hw⟩)
        | exited written => exact reads_next hall (List.getElem?_eq_some_iff.mpr ⟨hread, hw⟩)
      rcases hnext with ⟨t, hreach, htk, hworkers, htread⟩
      exact ⟨t, hreach, Or.inl ⟨htk, by omega⟩⟩
    · have hdone : s.read = s.k := Nat.le_antisymm (h.read_le.trans hall.le) (by omega)
      exact ⟨_, Reaches.step s _ .print Reaches.refl trivial (if_pos ⟨hall, hdone⟩), Or.inr rfl⟩

/-- The program can go on to the last line. -/
theorem finishes (h : Sound n dx hdx s) :
    ∃ t, Reaches (step n dx hdx) (fun _ e => e.Written) s t ∧ Sound n dx hdx t ∧ t.k = n + 1 := by
  refine reaches_goal_of_paths
    (fun s => (n + 1 - s.k) * (2 * n + 1) + (2 * n - (s.workers.length + s.read)))
    (fun s hs hgoal => ?_) _ s h le_rfl
  have hk : s.k ≤ n := Nat.lt_succ_iff.mp (lt_of_le_of_ne hs.k_le hgoal)
  rcases goes_on hs hk with ⟨t, hreach, hnear⟩
  have ht : Sound n dx hdx t :=
    hreach.invariant hs fun _ _ _ hv hok hstep => sound_step hv hok hstep
  refine ⟨t, hreach, ht, ?_⟩
  rcases hnear with ⟨htk, hmore⟩ | htk
  · have hread := ht.read_le
    have hworkers := ht.workers_le
    rw [htk] at hworkers ⊢
    omega
  · have hline : n + 1 - s.k = n + 1 - t.k + 1 := by omega
    rw [hline, Nat.succ_mul (n + 1 - t.k)]
    omega

end Program

/-- Every line that `main` prints is at least what a single worker computes for
    the whole interval, and the same exactly if the line has one worker or
    rectangles of width `dx` fit into the parts. This is so whatever the order in
    which the workers finish, and from wherever it stands `main` can go on until
    it has printed a line for every number of workers. -/
theorem printed_eq_iff (n : ℕ) (dx : ℚ) (hdx : 0 < dx) (s : State)
    (h : Reaches (step n dx hdx) (fun _ e => e.Written) start s) :
    (∀ k result, (k, result) ∈ s.printed →
      integrate_range 0 1 dx hdx ≤ result ∧
      (result = integrate_range 0 1 dx hdx ↔ k = 1 ∨ ∃ m : ℕ, m * dx = 1 / k)) ∧
    ∃ t, Reaches (step n dx hdx) (fun _ e => e.Written) s t ∧
      t.printed.map Prod.fst = List.range' 1 n := by
  have hs := sound_of_reaches h
  constructor
  · intro k result hline
    rw [hs.printed_eq, List.mem_map] at hline
    rcases hline with ⟨k, hk, hline⟩
    cases hline
    have hpos : 0 < k := (List.mem_range'_1.mp hk).1
    exact ⟨le_total hpos, total_eq_iff hpos⟩
  · rcases finishes hs with ⟨t, hreach, ht, hlast⟩
    refine ⟨t, hreach, ?_⟩
    rw [ht.printed_eq, hlast, List.map_map]
    exact List.map_id _

section Two

/-- What the program does for two workers with `dx` 1, the second of which
    finishes first. -/
def two : List Event :=
  [.fork, .finish 0 true, .read, .print, .fork, .fork, .finish 1 true, .finish 0 true, .read,
    .read, .print]

theorem dx_pos : (0 : ℚ) < 1 := by norm_num

/-- Each of the two workers has one rectangle of width 1, although its part is
    only half as wide. -/
theorem integrate_range_one :
    integrate_range 0 1 1 dx_pos = 4 ∧ total 1 dx_pos 2 = 36 / 5 := by
  have hone : needed (1 : ℚ) 1 = 1 := needed_of_fit dx_pos (by norm_num)
  have hhalf : needed (1 : ℚ) (1 / (2 : ℕ)) = 1 := by
    refine Nat.le_antisymm (needed_le dx_pos ?_) (needed_pos dx_pos ?_) <;> norm_num
  constructor
  · rw [integrate_range_eq, sub_zero, hone, rectangles_succ, rectangles_zero, function]
    norm_num
  · rw [total_eq_sum, hhalf, Finset.sum_range_succ, Finset.sum_range_one, rectangles_succ,
      rectangles_succ, rectangles_zero, rectangles_zero, function, function]
    norm_num

theorem reaches_two : ∃ s, Reaches (step 2 1 dx_pos) (fun _ e => e.Written) start s ∧
    s.printed = [(1, total 1 dx_pos 1), (2, total 1 dx_pos 2)] := by
  have hrun : ∃ s, run (step 2 1 dx_pos) start two = some s ∧ s.k = 3 := ⟨_, rfl, rfl⟩
  rcases hrun with ⟨s, hrun, hk⟩
  have hreach : Reaches (step 2 1 dx_pos) (fun _ e => e.Written) start s :=
    reaches_of_run hrun (by decide)
  refine ⟨s, hreach, ?_⟩
  rw [(sound_of_reaches hreach).printed_eq, hk]
  rfl

/-- Two workers with `dx` 1 come to 7.2, where a single one comes to 4. -/
theorem printed_two : ∃ s, Reaches (step 2 1 dx_pos) (fun _ e => e.Written) start s ∧
    (2, 36 / 5) ∈ s.printed ∧ integrate_range 0 1 1 dx_pos = 4 := by
  rcases reaches_two with ⟨s, hreach, hprinted⟩
  refine ⟨s, hreach, ?_, integrate_range_one.1⟩
  rw [hprinted, integrate_range_one.2]
  exact List.mem_cons_of_mem _ (List.mem_singleton_self _)

/-- No line of that run is less than that. -/
theorem printed_eq_iff_two : ∃ s, Reaches (step 2 1 dx_pos) (fun _ e => e.Written) start s ∧
    ∀ k result, (k, result) ∈ s.printed → integrate_range 0 1 1 dx_pos ≤ result := by
  rcases reaches_two with ⟨s, hreach, _⟩
  exact ⟨s, hreach, fun k result hline =>
    ((printed_eq_iff 2 1 dx_pos s hreach).1 k result hline).1⟩

end Two

end Integrator

end Lab5

end OsLabs
