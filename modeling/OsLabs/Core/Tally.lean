import Mathlib.Algebra.BigOperators.Group.Finset.Basic
import Mathlib.Algebra.BigOperators.Group.Finset.Piecewise
import Mathlib.Data.Fintype.BigOperators

/-!
# What the Members of a Family Come To

A system of many parties of one kind has them as a family, and a step of one
party changes one member. What is of interest is often a sum over all of them:
of values they have contributed, of steps they have left, or of ones, when they
are counted. `sumOf_update` says what a step of one party does to such a sum.

## Main definitions

* `sumOf`: A sum over a family.
* `countOf`: How many members have a property.

## Theorems

* `sumOf_update`, `countOf_update`: One member changes.
* `sumOf_update_of_eq`: It changes in a way that the sum does not see.
* `countOf_add_countOf`: Those that have the property and those that do not.
* `countOf_eq_zero_iff`, `countOf_eq_card_iff`: When none and when all have it.
-/

namespace OsLabs

variable {ι α M : Type*} [Fintype ι]

section Sum

variable [AddCommMonoid M]

/-- What the members of a family come to, each measured by `g`. -/
def sumOf (g : ι → α → M) (f : ι → α) : M := ∑ i, g i (f i)

variable {g : ι → α → M} {f : ι → α} {i : ι} {a : α}

theorem sumOf_congr {f' : ι → α} (h : ∀ i, g i (f i) = g i (f' i)) : sumOf g f = sumOf g f' :=
  Finset.sum_congr rfl fun i _ => h i

variable [DecidableEq ι]

/-- The old share of the member is replaced by the new one. -/
theorem sumOf_update : sumOf g (Function.update f i a) + g i (f i) = sumOf g f + g i a := by
  have hnew : sumOf g (Function.update f i a) = g i a + ∑ j ∈ Finset.univ.erase i, g j (f j) := by
    unfold sumOf
    rw [← Finset.add_sum_erase _ _ (Finset.mem_univ i), Function.update_self]
    congr 1
    refine Finset.sum_congr rfl fun j hj => ?_
    rw [Function.update_of_ne (Finset.ne_of_mem_erase hj)]
  have hold : sumOf g f = g i (f i) + ∑ j ∈ Finset.univ.erase i, g j (f j) :=
    (Finset.add_sum_erase _ _ (Finset.mem_univ i)).symm
  rw [hnew, hold]
  ac_rfl

theorem sumOf_update_of_eq (h : g i a = g i (f i)) :
    sumOf g (Function.update f i a) = sumOf g f := by
  refine sumOf_congr fun j => ?_
  by_cases hj : j = i
  · rw [hj, Function.update_self, h]
  · rw [Function.update_of_ne hj]

end Sum

section Count

/-- How many members have the property. -/
def countOf (p : α → Bool) (f : ι → α) : Nat := sumOf (fun _ a => (p a).toNat) f

variable {p : α → Bool} {f : ι → α}

theorem countOf_update [DecidableEq ι] {i : ι} {a : α} :
    countOf p (Function.update f i a) + (p (f i)).toNat = countOf p f + (p a).toNat :=
  sumOf_update

/-- Those that have the property and those that do not are all. -/
theorem countOf_add_countOf : countOf p f + countOf (fun a => !p a) f = Fintype.card ι := by
  unfold countOf sumOf
  rw [← Finset.sum_add_distrib, Fintype.card, Finset.card_eq_sum_ones]
  refine Finset.sum_congr rfl fun i _ => ?_
  cases hp : p (f i) <;> simp [hp]

theorem countOf_le : countOf p f ≤ Fintype.card ι := by
  have hall := countOf_add_countOf (p := p) (f := f)
  omega

theorem countOf_eq_zero_iff : countOf p f = 0 ↔ ∀ i, p (f i) = false := by
  unfold countOf sumOf
  rw [Finset.sum_eq_zero_iff]
  constructor
  · intro h i
    exact Bool.toNat_eq_zero.mp (h i (Finset.mem_univ i))
  · intro h i _
    exact Bool.toNat_eq_zero.mpr (h i)

theorem countOf_eq_card_iff : countOf p f = Fintype.card ι ↔ ∀ i, p (f i) = true := by
  have hall := countOf_add_countOf (p := p) (f := f)
  have hnone : countOf p f = Fintype.card ι ↔ countOf (fun a => !p a) f = 0 := by omega
  rw [hnone, countOf_eq_zero_iff]
  exact forall_congr' fun i => Bool.not_eq_eq_eq_not

end Count

end OsLabs
