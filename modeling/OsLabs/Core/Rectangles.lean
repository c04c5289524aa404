import Mathlib.Algebra.BigOperators.Intervals
import Mathlib.Algebra.Order.BigOperators.Group.Finset
import Mathlib.Algebra.Order.Field.Basic
import Mathlib.Algebra.Order.Floor.Semiring
import Mathlib.Tactic.Ring

/-!
# Rectangles under a Function

The rectangle rule with whole rectangles: an interval is covered by rectangles
of one width, each as high as the function at its left edge, until its end is
passed. The last one may stand out.

When the interval is cut into equal parts and each part is covered on its own,
a rectangle may stand out at the end of each of them. For a function that falls
everywhere, `le_sum_parts` says that the parts together are never less than the
whole, and `sum_parts_eq_iff` that they are the same exactly if the rectangles
fit into a part. Both compare the rectangles one by one: those of the part
number `i` stand further to the left than those of the same number under the
whole.

The trapezoid rule takes the mean of the heights at both edges instead. From the
rectangles of the same width it differs by the triangles between the first and
the last height alone, `trapezoids_eq_rectangles`.

## Main definitions

* `rectangles`: So many rectangles from a point on.
* `trapezoids`: So many trapezoids.
* `needed`: How many rectangles cover an interval.

## Theorems

* `needed_sub_add_one`: One rectangle after the other covers an interval.
* `rectangles_add`, `rectangles_mul`: Rectangles side by side.
* `trapezoids_eq_rectangles`: Trapezoids against rectangles.
* `rectangles_shift`, `rectangles_shift_lt`: Further to the left they are higher.
* `le_sum_parts`: The parts are at least the whole.
* `sum_parts_eq_iff`: When they are the whole.
-/

namespace OsLabs

variable {α : Type*} [Field α]

/-- The area of `n` rectangles of width `dx`, the first one at `start`. -/
def rectangles (f : α → α) (dx start : α) (n : ℕ) : α :=
  ∑ j ∈ Finset.range n, f (start + j * dx) * dx

/-- The area of `n` trapezoids of width `dx`, the first one at `start`. -/
def trapezoids (f : α → α) (dx start : α) (n : ℕ) : α :=
  ∑ j ∈ Finset.range n, (f (start + j * dx) + f (start + j * dx + dx)) / 2 * dx

/-- The number of rectangles of width `dx` that cover an interval. -/
def needed [LinearOrder α] [FloorSemiring α] (dx width : α) : ℕ := ⌈width / dx⌉₊

section Sums

variable {f : α → α} {dx start : α}

@[simp] theorem rectangles_zero : rectangles f dx start 0 = 0 := Finset.sum_range_zero _

theorem rectangles_add (m n : ℕ) :
    rectangles f dx start (m + n) =
      rectangles f dx start m + rectangles f dx (start + m * dx) n := by
  unfold rectangles
  rw [Finset.sum_range_add]
  congr 1
  refine Finset.sum_congr rfl fun j _ => ?_
  have hpoint : start + ((m + j : ℕ) : α) * dx = start + m * dx + j * dx := by
    push_cast
    ring
  rw [hpoint]

/-- A rectangle in front. -/
theorem rectangles_succ (n : ℕ) :
    rectangles f dx start (n + 1) = f start * dx + rectangles f dx (start + dx) n := by
  have hone : rectangles f dx start 1 = f start * dx := by
    rw [rectangles, Finset.sum_range_one, Nat.cast_zero, zero_mul, add_zero]
  rw [Nat.add_comm, rectangles_add, hone, Nat.cast_one, one_mul]

/-- `k` times `m` rectangles stand side by side. -/
theorem rectangles_mul (k m : ℕ) :
    rectangles f dx start (k * m) =
      ∑ i ∈ Finset.range k, rectangles f dx (start + i * (m * dx)) m := by
  induction k with
  | zero => rw [Nat.zero_mul, rectangles_zero, Finset.sum_range_zero]
  | succ k ih =>
      rw [Nat.succ_mul, rectangles_add, ih, Finset.sum_range_succ, Nat.cast_mul, mul_assoc]

/-- What the rectangles have in common telescopes: only the outer edges differ. -/
theorem trapezoids_eq_rectangles [NeZero (2 : α)] (n : ℕ) :
    trapezoids f dx start n =
      rectangles f dx start n - (f start - f (start + n * dx)) / 2 * dx := by
  induction n with
  | zero =>
      rw [trapezoids, rectangles, Finset.sum_range_zero, Finset.sum_range_zero, Nat.cast_zero,
        zero_mul, add_zero, sub_self, zero_div, zero_mul, sub_zero]
  | succ n ih =>
      unfold trapezoids rectangles at ih ⊢
      have hpoint : start + ((n + 1 : ℕ) : α) * dx = start + n * dx + dx := by
        push_cast
        ring
      have hhalves : f (start + n * dx) * dx =
          f (start + n * dx) / 2 * dx + f (start + n * dx) / 2 * dx := by
        rw [← add_mul, add_halves]
      rw [Finset.sum_range_succ, Finset.sum_range_succ, ih, hpoint, hhalves]
      ring

end Sums

variable [LinearOrder α] [IsStrictOrderedRing α]

section Order

variable {f : α → α} {dx a b : α}

/-- More rectangles under a function that is not negative are not less. -/
theorem rectangles_mono (hf : ∀ x, 0 ≤ x → 0 ≤ f x) (hdx : 0 < dx) (ha : 0 ≤ a) {m n : ℕ}
    (hle : m ≤ n) : rectangles f dx a m ≤ rectangles f dx a n := by
  refine Finset.sum_le_sum_of_subset_of_nonneg (Finset.range_mono hle) fun j _ _ => ?_
  have hpoint : 0 ≤ a + j * dx := add_nonneg ha (mul_nonneg (Nat.cast_nonneg j) hdx.le)
  exact mul_nonneg (hf _ hpoint) hdx.le

/-- Under a function that falls, rectangles further to the left are not less. -/
theorem rectangles_shift (hf : AntitoneOn f (Set.Ici 0)) (hdx : 0 < dx) (ha : 0 ≤ a)
    (hab : a ≤ b) (n : ℕ) : rectangles f dx b n ≤ rectangles f dx a n := by
  refine Finset.sum_le_sum fun j _ => mul_le_mul_of_nonneg_right ?_ hdx.le
  have hj : 0 ≤ j * dx := mul_nonneg (Nat.cast_nonneg j) hdx.le
  exact hf (add_nonneg ha hj) (add_nonneg (ha.trans hab) hj) ((add_le_add_iff_right _).mpr hab)

/-- They are more, if there are any. -/
theorem rectangles_shift_lt (hf : StrictAntiOn f (Set.Ici 0)) (hdx : 0 < dx) (ha : 0 ≤ a)
    (hab : a < b) {n : ℕ} (hn : 0 < n) : rectangles f dx b n < rectangles f dx a n := by
  refine Finset.sum_lt_sum_of_nonempty (Finset.nonempty_range_iff.mpr hn.ne') fun j _ =>
    mul_lt_mul_of_pos_right ?_ hdx
  have hj : 0 ≤ j * dx := mul_nonneg (Nat.cast_nonneg j) hdx.le
  exact hf (add_nonneg ha hj) (add_nonneg (ha.trans hab.le) hj) ((add_lt_add_iff_right _).mpr hab)

end Order

section Parts

variable [FloorSemiring α] {f : α → α} {dx width : α}

/-- The rectangles reach the end of the interval. -/
theorem le_needed_mul (hdx : 0 < dx) : width ≤ needed dx width * dx := by
  have h := mul_le_mul_of_nonneg_right (Nat.le_ceil (width / dx)) hdx.le
  rwa [div_mul_cancel₀ _ hdx.ne'] at h

/-- There are no more of them than that takes. -/
theorem needed_le (hdx : 0 < dx) {n : ℕ} (h : width ≤ n * dx) : needed dx width ≤ n :=
  Nat.ceil_le.mpr ((div_le_iff₀ hdx).mpr h)

theorem needed_pos (hdx : 0 < dx) (hwidth : 0 < width) : 0 < needed dx width :=
  Nat.ceil_pos.mpr (div_pos hwidth hdx)

/-- If rectangles of that width fit into the interval, they are those needed. -/
theorem needed_of_fit (hdx : 0 < dx) {m : ℕ} (h : m * dx = width) : needed dx width = m := by
  rw [needed, ← h, mul_div_cancel_right₀ _ hdx.ne', Nat.ceil_natCast]

/-- One rectangle less is needed when the interval is one rectangle shorter. -/
theorem needed_sub_add_one (hdx : 0 < dx) (hwidth : 0 < width) :
    needed dx (width - dx) + 1 = needed dx width := by
  refine le_antisymm ?_ (needed_le hdx ?_)
  · rcases Nat.exists_eq_succ_of_ne_zero (needed_pos hdx hwidth).ne' with ⟨n, hn⟩
    have hreach : width ≤ needed dx width * dx := le_needed_mul hdx
    rw [hn, Nat.cast_succ, add_mul, one_mul] at hreach
    rw [hn]
    exact Nat.succ_le_succ (needed_le hdx (sub_le_iff_le_add.mpr hreach))
  · rw [Nat.cast_succ, add_mul, one_mul]
    exact sub_le_iff_le_add.mp (le_needed_mul hdx)

/-- What covers each of `k` parts is enough for the whole. -/
theorem needed_mul_le (hdx : 0 < dx) (k : ℕ) :
    needed dx (k * width) ≤ k * needed dx width := by
  refine needed_le hdx ?_
  rw [Nat.cast_mul, mul_assoc]
  exact mul_le_mul_of_nonneg_left (le_needed_mul hdx) (Nat.cast_nonneg k)

/-- The rectangles of a part stand further to the left than those of the same
    numbers under the whole. -/
theorem rectangles_le_part (hf : AntitoneOn f (Set.Ici 0)) (hdx : 0 < dx) (hwidth : 0 < width)
    (i : ℕ) (n : ℕ) :
    rectangles f dx (0 + i * (needed dx width * dx)) n ≤ rectangles f dx (i * width) n := by
  have hstart : (0 : α) ≤ i * width := mul_nonneg (Nat.cast_nonneg i) hwidth.le
  refine rectangles_shift hf hdx hstart ?_ n
  rw [zero_add]
  exact mul_le_mul_of_nonneg_left (le_needed_mul hdx) (Nat.cast_nonneg i)

/-- The `k` parts of an interval are together at least what the whole is. -/
theorem le_sum_parts (hf : AntitoneOn f (Set.Ici 0)) (hnonneg : ∀ x, 0 ≤ x → 0 ≤ f x)
    (hdx : 0 < dx) (hwidth : 0 < width) (k : ℕ) :
    rectangles f dx 0 (needed dx (k * width)) ≤
      ∑ i ∈ Finset.range k, rectangles f dx (i * width) (needed dx width) := by
  calc rectangles f dx 0 (needed dx (k * width))
      ≤ rectangles f dx 0 (k * needed dx width) :=
        rectangles_mono hnonneg hdx le_rfl (needed_mul_le hdx k)
    _ = ∑ i ∈ Finset.range k,
          rectangles f dx (0 + i * (needed dx width * dx)) (needed dx width) :=
        rectangles_mul k (needed dx width)
    _ ≤ ∑ i ∈ Finset.range k, rectangles f dx (i * width) (needed dx width) :=
        Finset.sum_le_sum fun i _ => rectangles_le_part hf hdx hwidth i _

/-- They are the same exactly if there is one part or rectangles of that width
    fit into a part. -/
theorem sum_parts_eq_iff (hf : StrictAntiOn f (Set.Ici 0)) (hnonneg : ∀ x, 0 ≤ x → 0 ≤ f x)
    (hdx : 0 < dx) (hwidth : 0 < width) {k : ℕ} (hk : 0 < k) :
    ∑ i ∈ Finset.range k, rectangles f dx (i * width) (needed dx width) =
        rectangles f dx 0 (needed dx (k * width)) ↔
      k = 1 ∨ ∃ m : ℕ, m * dx = width := by
  constructor
  · intro heq
    by_contra hno
    rcases not_or.mp hno with ⟨hone, hfit⟩
    -- The rectangles stand out of the first part, so the second has a gain.
    have hover : width < needed dx width * dx :=
      lt_of_le_of_ne (le_needed_mul hdx) fun h => hfit ⟨_, h.symm⟩
    have hsecond : rectangles f dx (0 + (1 : ℕ) * (needed dx width * dx)) (needed dx width) <
        rectangles f dx ((1 : ℕ) * width) (needed dx width) := by
      rw [Nat.cast_one, one_mul, one_mul, zero_add]
      exact rectangles_shift_lt hf hdx hwidth.le hover (needed_pos hdx hwidth)
    have hless : rectangles f dx 0 (k * needed dx width) <
        ∑ i ∈ Finset.range k, rectangles f dx (i * width) (needed dx width) := by
      rw [rectangles_mul]
      refine Finset.sum_lt_sum (fun i _ => rectangles_le_part hf.antitoneOn hdx hwidth i _)
        ⟨1, Finset.mem_range.mpr (by omega), hsecond⟩
    have hmore : rectangles f dx 0 (needed dx (k * width)) ≤
        rectangles f dx 0 (k * needed dx width) :=
      rectangles_mono hnonneg hdx le_rfl (needed_mul_le hdx k)
    exact absurd heq (hmore.trans_lt hless).ne'
  · rintro (rfl | ⟨m, hm⟩)
    · rw [Finset.sum_range_one, Nat.cast_zero, zero_mul, Nat.cast_one, one_mul]
    · -- Now the parts stand side by side.
      have hwhole : ((k * m : ℕ) : α) * dx = k * width := by
        rw [Nat.cast_mul, mul_assoc, hm]
      rw [needed_of_fit hdx hm, needed_of_fit hdx hwhole, rectangles_mul]
      refine Finset.sum_congr rfl fun i _ => ?_
      rw [hm, zero_add]

end Parts

end OsLabs
