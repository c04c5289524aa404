import Mathlib.Algebra.Group.Int.Defs
import Mathlib.Logic.Function.Iterate
import Mathlib.Order.Bounds.Defs

/-!
# The Collatz Library

`lab1/src/collatz.c`: a function for one step of the Collatz sequence and one
that follows the sequence from a number, writes it down and tells whether it has
come to 1 within a number of steps.

The arithmetic is done in the integers. Beside what the function computes, it
notes the results of its operations on `int` and the elements of `steps` it
accesses, so that it can be said afterwards whether each result was an `int` and
each element was there. `steps` is the memory that the pointer leads to, on both
sides: if nothing has been written the function still reads the element before
the first.

The result is right for every array that is large enough. It is the callers that
are wrong: all three of them declare an array of `max_iter` elements, and a
sequence that comes to 1 in exactly `max_iter` steps has one more.

## Main definitions

* `collatz_conjecture`, `test_collatz_convergence`: As in the source.
* `trajectory`: The sequence.
* `Safe`: Every element accessed is in the array, every result is an `int`.
* `Followed`: What the loop has written so far.

## Theorems

* `followed_loop`: What the loop leaves.
* `converged`, `not_converged`: The two ways the function can end.
* `convergence_iff`: What the function returns and writes.
* `convergence_iff_six`: From 6.
* `safe_iff`: When it does nothing that is not defined.
* `safe_iff_six`: From 6, with one element to spare.
* `unsafe_calls`: Three calls that are not defined.
-/

namespace OsLabs

namespace Lab1

/-- One step of the sequence. Division goes towards zero. -/
def collatz_conjecture (input : Int) : Int :=
  if input.tmod 2 = 0 then input.tdiv 2 else 3 * input + 1

/-- The results of the operations in `collatz_conjecture`, except for the
    remainder. -/
def arithmetic (input : Int) : List Int :=
  if input.tmod 2 = 0 then [input.tdiv 2] else [3 * input, 3 * input + 1]

/-- The variables of `test_collatz_convergence`, the elements of `steps` that
    have been accessed, and the results that have been computed. -/
structure Loop where
  count : Nat
  current : Int
  steps : Int → Int
  accessed : List Int
  computed : List Int

/-- `steps[count++] = value`. -/
def Loop.push (s : Loop) (value : Int) : Loop :=
  { s with
    count := s.count + 1
    steps := Function.update s.steps s.count value
    accessed := s.accessed ++ [(s.count : Int)] }

/-- The loop, with as many turns as `count` is below `max_iter`. -/
def runLoop : Nat → Loop → Loop
  | 0, s => s
  | n + 1, s =>
    if s.current ≠ 1 then
      runLoop n { s.push s.current with
        current := collatz_conjecture s.current
        computed := s.computed ++ arithmetic s.current }
    else s

/-- What `test_collatz_convergence` returns, what it leaves in memory, and what
    it has done on the way. -/
structure Outcome where
  result : Int
  steps : Int → Int
  accessed : List Int
  computed : List Int

def test_collatz_convergence (input max_iter : Int) (steps : Int → Int) : Outcome :=
  let s := runLoop max_iter.toNat
    { count := 0, current := input, steps := steps, accessed := [], computed := [] }
  let t := if s.current = 1 then s.push 1 else s
  -- With nothing written this reads `steps[-1]`.
  { result := if t.steps ((t.count : Int) - 1) ≠ 1 then 0 else t.count
    steps := t.steps
    accessed := t.accessed ++ [(t.count : Int) - 1]
    computed := t.computed }

/-- The sequence that begins with a number. -/
def trajectory (input : Int) (k : Nat) : Int := collatz_conjecture^[k] input

/-- The value of an `int`. -/
def IsInt (n : Int) : Prop := -2 ^ 31 ≤ n ∧ n < 2 ^ 31

/-- Every element accessed is one of the `max_iter` elements of the array, and
    every result of an operation is an `int`. -/
structure Safe (max_iter : Int) (out : Outcome) : Prop where
  inside : ∀ i ∈ out.accessed, 0 ≤ i ∧ i < max_iter
  fits : ∀ n ∈ out.computed, IsInt n

/-- The sequence comes to 1 after so many steps, and not before. -/
def ArrivesAt (input : Int) (n : Nat) : Prop := IsLeast {k | trajectory input k = 1} n

/-- So far `count` values of the sequence have been written, none of them 1. -/
structure Followed (input : Int) (s : Loop) : Prop where
  current_eq : s.current = trajectory input s.count
  not_one : ∀ k, k < s.count → trajectory input k ≠ 1
  steps_eq : ∀ k : Nat, k < s.count → s.steps k = trajectory input k
  accessed_eq : s.accessed = (List.range s.count).map fun k : Nat => (k : Int)
  computed_eq : s.computed = (List.range s.count).flatMap fun k => arithmetic (trajectory input k)

section Loop

variable {input max_iter : Int} {s : Loop} {steps : Int → Int}

theorem trajectory_succ (input : Int) (k : Nat) :
    trajectory input (k + 1) = collatz_conjecture (trajectory input k) :=
  Function.iterate_succ_apply' collatz_conjecture k input

/-- One turn writes down one more value. -/
theorem followed_turn (hs : Followed input s) (hone : s.current ≠ 1) :
    Followed input { s.push s.current with
      current := collatz_conjecture s.current
      computed := s.computed ++ arithmetic s.current } where
  current_eq := by
    change _ = trajectory input (s.count + 1)
    rw [trajectory_succ, ← hs.current_eq]
  not_one k hk := by
    change k < s.count + 1 at hk
    by_cases hlast : k = s.count
    · rw [hlast, ← hs.current_eq]
      exact hone
    · exact hs.not_one k (by omega)
  steps_eq k hk := by
    change k < s.count + 1 at hk
    change Function.update s.steps s.count s.current (k : Int) = _
    by_cases hlast : k = s.count
    · rw [hlast, Function.update_self, hs.current_eq]
    · rw [Function.update_of_ne (by omega)]
      exact hs.steps_eq k (by omega)
  accessed_eq := by
    change s.accessed ++ [(s.count : Int)] = (List.range (s.count + 1)).map _
    rw [hs.accessed_eq, List.range_succ, List.map_append, List.map_singleton]
  computed_eq := by
    change s.computed ++ arithmetic s.current = (List.range (s.count + 1)).flatMap _
    rw [hs.computed_eq, List.range_succ, List.flatMap_append, List.flatMap_singleton,
      hs.current_eq]

/-- The loop ends at 1 or when all its turns are used. -/
theorem followed_loop (n : Nat) (hs : Followed input s) :
    Followed input (runLoop n s) ∧ (runLoop n s).count ≤ s.count + n ∧
      ((runLoop n s).current = 1 ∨ (runLoop n s).count = s.count + n) := by
  induction n generalizing s with
  | zero => exact ⟨hs, Nat.le_refl _, Or.inr rfl⟩
  | succ n ih =>
      rw [runLoop]
      by_cases hone : s.current = 1
      · rw [if_neg (not_not_intro hone)]
        exact ⟨hs, Nat.le_add_right _ _, Or.inl hone⟩
      · rw [if_pos hone]
        rcases ih (followed_turn hs hone) with ⟨hfollowed, hle, hend⟩
        -- The count has gone up by one where the turns have gone down.
        have hcount : s.count + 1 + n = s.count + (n + 1) := by omega
        change _ ≤ s.count + 1 + n at hle
        change _ ∨ _ = s.count + 1 + n at hend
        rw [hcount] at hle hend
        exact ⟨hfollowed, hle, hend⟩

theorem followed_start (input : Int) (steps : Int → Int) :
    Followed input
      { count := 0, current := input, steps := steps, accessed := [], computed := [] } where
  current_eq := rfl
  not_one k hk := absurd hk (Nat.not_lt_zero k)
  steps_eq k hk := absurd hk (Nat.not_lt_zero k)
  accessed_eq := rfl
  computed_eq := rfl

/-- Before the first 1 nothing is 1. -/
theorem arrivesAt_of {n : Nat} (hone : trajectory input n = 1)
    (hbefore : ∀ k, k < n → trajectory input k ≠ 1) : ArrivesAt input n := by
  refine ⟨hone, fun k hk => ?_⟩
  by_contra hlt
  exact hbefore k (by omega) hk

theorem arrivesAt_unique {m n : Nat} (hm : ArrivesAt input m) (hn : ArrivesAt input n) : m = n :=
  Nat.le_antisymm (hm.2 hn.1) (hn.2 hm.1)

/-- What is done if the sequence comes to 1 in time. -/
structure Converged (input max_iter : Int) (n : Nat) (out : Outcome) : Prop where
  arrives : ArrivesAt input n
  le : n ≤ max_iter.toNat
  result_eq : out.result = n + 1
  steps_eq : ∀ k : Nat, k ≤ n → out.steps k = trajectory input k
  accessed_eq : out.accessed = ((List.range (n + 1)).map fun k : Nat => (k : Int)) ++ [(n : Int)]
  computed_eq : out.computed = (List.range n).flatMap fun k => arithmetic (trajectory input k)

/-- What is done if it does not. -/
structure NotConverged (input max_iter : Int) (out : Outcome) : Prop where
  not_one : ∀ k, k ≤ max_iter.toNat → trajectory input k ≠ 1
  result_eq : out.result = 0
  steps_eq : ∀ k : Nat, k < max_iter.toNat → out.steps k = trajectory input k
  accessed_eq : out.accessed
    = ((List.range max_iter.toNat).map fun k : Nat => (k : Int)) ++ [(max_iter.toNat : Int) - 1]
  computed_eq : out.computed
    = (List.range max_iter.toNat).flatMap fun k => arithmetic (trajectory input k)

/-- The loop has come to 1: it is written down behind the others, and read. -/
theorem converged (hs : Followed input s) (hone : s.current = 1) (hle : s.count ≤ max_iter.toNat) :
    Converged input max_iter s.count
      { result := if (s.push 1).steps (((s.push 1).count : Int) - 1) ≠ 1 then 0 else (s.push 1).count
        steps := (s.push 1).steps
        accessed := (s.push 1).accessed ++ [((s.push 1).count : Int) - 1]
        computed := (s.push 1).computed } := by
  have hcurrent := hs.current_eq
  rw [hone] at hcurrent
  have hlast : ((s.push 1).count : Int) - 1 = s.count := by
    change ((s.count + 1 : Nat) : Int) - 1 = s.count
    omega
  have hread : (s.push 1).steps s.count = 1 := Function.update_self _ _ _
  refine ⟨arrivesAt_of hcurrent.symm hs.not_one, hle, ?_, fun k hk => ?_, ?_, hs.computed_eq⟩
  · simp only [hlast, hread, ne_eq, not_true_eq_false, if_false]
    exact Int.natCast_succ s.count
  · change Function.update s.steps s.count 1 (k : Int) = _
    by_cases hlt : k = s.count
    · rw [hlt, Function.update_self, ← hcurrent]
    · rw [Function.update_of_ne (by omega)]
      exact hs.steps_eq k (by omega)
  · simp only [hlast]
    change (s.accessed ++ [(s.count : Int)]) ++ _ = _
    rw [hs.accessed_eq, List.range_succ, List.map_append, List.map_singleton]

/-- The turns are used up: the last value written is read, and is not 1. -/
theorem not_converged (hs : Followed input s) (hone : s.current ≠ 1)
    (hcount : s.count = max_iter.toNat) :
    NotConverged input max_iter
      { result := if s.steps ((s.count : Int) - 1) ≠ 1 then 0 else s.count
        steps := s.steps
        accessed := s.accessed ++ [(s.count : Int) - 1]
        computed := s.computed } := by
  refine ⟨fun k hk => ?_, ?_, ?_, ?_, ?_⟩
  · by_cases hlast : k = s.count
    · rw [hlast, ← hs.current_eq]
      exact hone
    · exact hs.not_one k (by omega)
  · by_cases hzero : s.count = 0
    · -- Whatever stands before the array, the result is no other.
      simp only [hzero]
      exact ite_self _
    · have hread := hs.steps_eq (s.count - 1) (by omega)
      have hcast : ((s.count - 1 : Nat) : Int) = (s.count : Int) - 1 := by omega
      rw [hcast] at hread
      simp only [hread]
      exact if_pos (hs.not_one _ (by omega))
  · rw [← hcount]
    exact hs.steps_eq
  · rw [← hcount, hs.accessed_eq]
  · rw [← hcount, hs.computed_eq]

/-- The function ends in one of the two ways. -/
theorem outcome_cases (input max_iter : Int) (steps : Int → Int) :
    (∃ n, Converged input max_iter n (test_collatz_convergence input max_iter steps)) ∨
      NotConverged input max_iter (test_collatz_convergence input max_iter steps) := by
  rcases followed_loop max_iter.toNat (followed_start input steps) with ⟨hfollowed, hle, hend⟩
  unfold test_collatz_convergence
  generalize runLoop max_iter.toNat _ = s at hfollowed hle hend ⊢
  change s.count ≤ 0 + _ at hle
  change _ ∨ s.count = 0 + _ at hend
  rw [Nat.zero_add] at hle hend
  by_cases hone : s.current = 1
  · simp only [hone, if_true]
    exact Or.inl ⟨s.count, converged hfollowed hone hle⟩
  · simp only [hone, if_false]
    exact Or.inr (not_converged hfollowed hone (hend.resolve_left hone))

end Loop

/-- The function returns a positive number exactly if the sequence comes to 1
    within `max_iter` steps. The number is one more than the steps, and the
    sequence has been written down to its 1. Otherwise it returns 0, and the
    first `max_iter` values have been written down, none of them 1. -/
theorem convergence_iff (input max_iter : Int) (steps : Int → Int) (hmax : 1 ≤ max_iter) :
    let out := test_collatz_convergence input max_iter steps
    (0 < out.result ↔ ∃ k : Nat, k ≤ max_iter ∧ trajectory input k = 1) ∧
    (0 < out.result → ∃ n : Nat, out.result = n + 1 ∧ ArrivesAt input n ∧
      ∀ k : Nat, k ≤ n → out.steps k = trajectory input k) ∧
    (¬ 0 < out.result → out.result = 0 ∧ ∀ k : Nat, k < max_iter →
      out.steps k = trajectory input k ∧ trajectory input k ≠ 1) := by
  simp only []
  rcases outcome_cases input max_iter steps with ⟨n, h⟩ | h
  · have hpos : 0 < (test_collatz_convergence input max_iter steps).result := by
      rw [h.result_eq]
      omega
    have hle := h.le
    refine ⟨iff_of_true hpos ⟨n, by omega, h.arrives.1⟩,
      fun _ => ⟨n, h.result_eq, h.arrives, h.steps_eq⟩, fun hnot => absurd hpos hnot⟩
  · have hzero := h.result_eq
    have hpos : ¬ 0 < (test_collatz_convergence input max_iter steps).result := by
      rw [hzero]
      exact Int.lt_irrefl 0
    refine ⟨iff_of_false hpos ?_, fun hp => absurd hp hpos, fun _ => ⟨hzero, fun k hk => ?_⟩⟩
    · rintro ⟨k, hk, hone⟩
      exact h.not_one k (by omega) hone
    · exact ⟨h.steps_eq k (by omega), h.not_one k (by omega)⟩

/-- From 6 the sequence comes to 1 in eight steps. -/
theorem convergence_iff_six :
    (test_collatz_convergence 6 8 fun _ => 0).result = 9 ∧
      ∃ n : Nat, (9 : Int) = n + 1 ∧ ArrivesAt 6 n := by
  have hresult : (test_collatz_convergence 6 8 fun _ => 0).result = 9 := by decide
  rcases (convergence_iff 6 8 (fun _ => 0) (by decide)).2.1 (by rw [hresult]; decide) with
    ⟨n, hn, harrives, _⟩
  rw [hresult] at hn
  exact ⟨hresult, n, hn, harrives⟩

section Safety

variable {input max_iter : Int}

theorem tmod_two_iff (n : Int) : n.tmod 2 = 0 ↔ n % 2 = 0 := by
  rw [← Int.dvd_iff_tmod_eq_zero, Int.dvd_iff_emod_eq_zero]

/-- An even number can be halved, and an odd one needs room for three times
    itself and one more. -/
theorem arithmetic_fits {n : Int} (hn : IsInt n) :
    (∀ r ∈ arithmetic n, IsInt r) ↔ (n % 2 = 1 → -2 ^ 31 ≤ 3 * n ∧ 3 * n + 1 < 2 ^ 31) := by
  unfold arithmetic IsInt at *
  by_cases heven : n.tmod 2 = 0
  · have hmod := (tmod_two_iff n).mp heven
    rw [if_pos heven, List.forall_mem_singleton]
    refine iff_of_true ?_ fun hodd => by omega
    rw [Int.tdiv_eq_ediv_of_dvd (Int.dvd_of_emod_eq_zero hmod)]
    omega
  · have hmod : n % 2 = 1 := by
      have hne : ¬ n % 2 = 0 := fun h => heven ((tmod_two_iff n).mpr h)
      omega
    rw [if_neg heven, List.forall_mem_cons, List.forall_mem_singleton]
    constructor
    · rintro ⟨hthree, hplus⟩ _
      exact ⟨hthree.1, hplus.2⟩
    · intro h
      have hboth := h hmod
      omega

/-- The next value is one of the results. -/
theorem mem_arithmetic (n : Int) : collatz_conjecture n ∈ arithmetic n := by
  unfold collatz_conjecture arithmetic
  by_cases heven : n.tmod 2 = 0
  · rw [if_pos heven, if_pos heven]
    exact List.mem_singleton_self _
  · rw [if_neg heven, if_neg heven]
    exact List.mem_cons_of_mem _ (List.mem_singleton_self _)

/-- The odd values before the first 1, as far as the loop goes, leave room for
    three times themselves and one more. -/
def RoomToGrow (input : Int) (turns : Nat) : Prop :=
  ∀ k, k < turns → (∀ j, j ≤ k → trajectory input j ≠ 1) → trajectory input k % 2 = 1 →
    -2 ^ 31 ≤ 3 * trajectory input k ∧ 3 * trajectory input k + 1 < 2 ^ 31

/-- The results of the first steps are `int`s exactly if the odd values among
    them leave room. The induction is on the steps, since an even value is an
    `int` because it has been a result before. -/
theorem computed_fits (hinput : IsInt input) (n : Nat) :
    (∀ r ∈ (List.range n).flatMap fun k => arithmetic (trajectory input k), IsInt r) ↔
      ∀ k, k < n → trajectory input k % 2 = 1 →
        -2 ^ 31 ≤ 3 * trajectory input k ∧ 3 * trajectory input k + 1 < 2 ^ 31 := by
  have hvalue : ∀ m, (∀ r ∈ (List.range m).flatMap fun k => arithmetic (trajectory input k), IsInt r) →
      IsInt (trajectory input m) := by
    intro m hm
    cases m with
    | zero => exact hinput
    | succ m =>
        rw [trajectory_succ]
        refine hm _ (List.mem_flatMap.mpr ⟨m, List.mem_range.mpr (Nat.lt_succ_self m), ?_⟩)
        exact mem_arithmetic _
  induction n with
  | zero => exact iff_of_true (List.forall_mem_nil _) fun k hk => absurd hk (Nat.not_lt_zero k)
  | succ n ih =>
      rw [List.range_succ, List.flatMap_append, List.flatMap_singleton, List.forall_mem_append]
      constructor
      · rintro ⟨hold, hnew⟩ k hk
        by_cases hlast : k = n
        · rw [hlast]
          exact (arithmetic_fits (hvalue n hold)).mp hnew
        · exact ih.mp hold k (by omega)
      · intro hall
        have hold := ih.mpr fun k hk => hall k (by omega)
        exact ⟨hold, (arithmetic_fits (hvalue n hold)).mpr (hall n (Nat.lt_succ_self n))⟩

end Safety

/-- With an array of `max_iter` elements the function accesses no other element
    and computes nothing but `int`s exactly if `max_iter` is not zero, the
    sequence does not come to 1 in just `max_iter` steps, and the odd values on
    the way are not too large or too small. -/
theorem safe_iff (input max_iter : Int) (steps : Int → Int) (hinput : IsInt input)
    (hmax : 0 ≤ max_iter) :
    Safe max_iter (test_collatz_convergence input max_iter steps) ↔
      max_iter ≠ 0 ∧ ¬ ArrivesAt input max_iter.toNat ∧ RoomToGrow input max_iter.toNat := by
  rcases outcome_cases input max_iter steps with ⟨n, h⟩ | h
  · have hle := h.le
    have hinside : (∀ i ∈ (test_collatz_convergence input max_iter steps).accessed,
        0 ≤ i ∧ i < max_iter) ↔ (n : Int) < max_iter := by
      rw [h.accessed_eq]
      constructor
      · intro hall
        exact (hall n (List.mem_append_right _ (List.mem_singleton_self _))).2
      · intro hlt i hi
        rcases List.mem_append.mp hi with hi | hi
        · rcases List.mem_map.mp hi with ⟨k, hk, rfl⟩
          rw [List.mem_range] at hk
          omega
        · rw [List.mem_singleton.mp hi]
          omega
    have hfits := computed_fits hinput n
    rw [← h.computed_eq] at hfits
    -- The loop looks at the values before the first 1.
    have hroom : RoomToGrow input max_iter.toNat ↔ ∀ k, k < n → trajectory input k % 2 = 1 →
        -2 ^ 31 ≤ 3 * trajectory input k ∧ 3 * trajectory input k + 1 < 2 ^ 31 := by
      constructor
      · intro hall k hk
        refine hall k (by omega) fun j hj hone => ?_
        have hfirst := h.arrives.2 hone
        omega
      · intro hall k _ hbefore
        refine hall k ?_
        by_contra hlt
        exact hbefore n (by omega) h.arrives.1
    have harrives : ArrivesAt input max_iter.toNat ↔ n = max_iter.toNat :=
      ⟨arrivesAt_unique h.arrives, fun heq => heq ▸ h.arrives⟩
    rw [hroom, harrives, ← hfits]
    constructor
    · rintro ⟨hall, hcomputed⟩
      have hlt := hinside.mp hall
      exact ⟨by omega, by omega, hcomputed⟩
    · rintro ⟨hne, hnot, hcomputed⟩
      exact ⟨hinside.mpr (by omega), hcomputed⟩
  · have hnot : ¬ ArrivesAt input max_iter.toNat := fun ha => h.not_one _ (Nat.le_refl _) ha.1
    have hinside : (∀ i ∈ (test_collatz_convergence input max_iter steps).accessed,
        0 ≤ i ∧ i < max_iter) ↔ max_iter ≠ 0 := by
      rw [h.accessed_eq]
      constructor
      · -- The element before the array is read if the array is empty.
        intro hall
        have hlast := hall _ (List.mem_append_right _ (List.mem_singleton_self _))
        omega
      · intro hne i hi
        rcases List.mem_append.mp hi with hi | hi
        · rcases List.mem_map.mp hi with ⟨k, hk, rfl⟩
          rw [List.mem_range] at hk
          omega
        · rw [List.mem_singleton.mp hi]
          omega
    have hfits := computed_fits hinput max_iter.toNat
    rw [← h.computed_eq] at hfits
    have hroom : RoomToGrow input max_iter.toNat ↔
        ∀ k, k < max_iter.toNat → trajectory input k % 2 = 1 →
          -2 ^ 31 ≤ 3 * trajectory input k ∧ 3 * trajectory input k + 1 < 2 ^ 31 :=
      ⟨fun hall k hk => hall k hk fun j hj => h.not_one j (by omega),
        fun hall k hk _ => hall k hk⟩
    rw [hroom, ← hfits, and_iff_right hnot]
    exact ⟨fun hsafe => ⟨hinside.mp hsafe.inside, hsafe.fits⟩,
      fun hcond => ⟨hinside.mpr hcond.1, hcond.2⟩⟩

/-- From 6 with an array of nine elements. -/
theorem safe_iff_six : Safe 9 (test_collatz_convergence 6 9 fun _ => 0) := by
  refine (safe_iff 6 9 (fun _ => 0) ⟨by decide, by decide⟩ (by decide)).mpr ⟨by decide, ?_, ?_⟩
  · -- The sequence is at 1 before.
    exact fun h => absurd (h.2 (show trajectory 6 8 = 1 by decide)) (by decide)
  · have hall : ∀ k, k < 9 → trajectory 6 k % 2 = 1 →
        -2 ^ 31 ≤ 3 * trajectory 6 k ∧ 3 * trajectory 6 k + 1 < 2 ^ 31 := by decide
    exact fun k hk _ => hall k hk

/-- 2 comes to 1 in one step, so that two elements are written into an array of
    one. Three times 715827883 is no `int`. And without steps the element before
    the array is read. -/
theorem unsafe_calls :
    ¬ Safe 1 (test_collatz_convergence 2 1 fun _ => 0) ∧
    ¬ Safe 1 (test_collatz_convergence 715827883 1 fun _ => 0) ∧
    ¬ Safe 0 (test_collatz_convergence 2 0 fun _ => 0) := by
  refine ⟨fun h => ?_, fun h => ?_, fun h => ?_⟩
  · exact absurd (h.inside 1 (by decide)).2 (by decide)
  · exact absurd (h.fits 2147483649 (by decide)).2 (by decide)
  · exact absurd (h.inside (-1) (by decide)).1 (by decide)

end Lab1

end OsLabs
