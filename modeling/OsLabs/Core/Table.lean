import Mathlib.Algebra.BigOperators.Fin
import Mathlib.Algebra.Order.BigOperators.Group.Finset
import Mathlib.Data.List.FinRange
import Mathlib.Data.List.Nodup

/-!
# Tables of Slots

A table is an array of a fixed number of slots, seen as a function on the slot
numbers. Programs that keep one do two things to it from front to back: they
search for the first slot with some property, and they visit every slot,
changing the table as they go.

The search is `firstSlot`. A visit is a fold over the slot numbers, and three
facts about folds cover the proofs: what each visit preserves, the whole fold
preserves; what each visit does for its own slot and undoes for none, the whole
fold does for all; and a property that each visit keeps exactly when its slot
is good is kept by the whole fold exactly when every slot is good. The last
needs that visiting one slot does not make another good or bad, which is what
`foldl_iff` calls the frame.

A table is also what a system has of its processes: slot `i` says where
process `i` stands. Invariants about how many processes stand somewhere are
sums over the table, `total`, and `total_update` is how such a sum changes when
one process moves. It is stated without subtraction, so that `omega` can use
it.

## Main definitions

* `firstSlot`: The first slot with a property.
* `total`: A sum over the slots.

## Theorems

* `firstSlot_some`: What the search finds has the property.
* `firstSlot_eq_none_iff`: When the search finds nothing.
* `foldl_preserves`: What each visit preserves, all of them preserve.
* `foldl_establishes`: What each visit does for its slot, all do for all.
* `foldl_iff`: A property all visits keep if and only if every slot is good.
* `foldl_visits`: What each visit does to its slot and gives out, all do to
  theirs.
* `filter_flatMap_slot`: Of what is gathered from all slots, the part of one.
* `total_update`: How a sum changes with one slot.
* `total_add`: The sum of two quantities.
* `le_total`: A slot counts for no more than the sum.
* `exists_of_total_pos`: A positive sum has a positive slot.
-/

namespace OsLabs

section Search

variable {n : Nat} {p : Fin n → Bool}

/-- The first slot with the property. -/
def firstSlot {n : Nat} (p : Fin n → Bool) : Option (Fin n) := (List.finRange n).find? p

theorem firstSlot_some {i : Fin n} (h : firstSlot p = some i) : p i = true :=
  List.find?_some h

theorem firstSlot_eq_none_iff : firstSlot p = none ↔ ∀ i, p i = false := by
  rw [firstSlot, List.find?_eq_none]
  exact ⟨fun h i => Bool.eq_false_iff.mpr (h i (List.mem_finRange i)),
    fun h i _ => Bool.eq_false_iff.mp (h i)⟩

end Search

section Visits

variable {σ ι : Type*} {f : σ → ι → σ}

/-- What each visit preserves, all of them preserve. -/
theorem foldl_preserves {Inv : σ → Prop} (hf : ∀ s i, Inv s → Inv (f s i)) (l : List ι) :
    ∀ s, Inv s → Inv (l.foldl f s) := by
  induction l with
  | nil => intro s hs; exact hs
  | cons i l ih => intro s hs; exact ih (f s i) (hf s i hs)

/-- The same for visits to the slots of a list only. -/
theorem foldl_preserves_mem {P : σ → Prop} (l : List ι) :
    (∀ i ∈ l, ∀ s, P s → P (f s i)) → ∀ s, P s → P (l.foldl f s) := by
  induction l with
  | nil => intro _ s hs; exact hs
  | cons i l ih =>
      intro hf s hs
      exact ih (fun j hj => hf j (List.mem_cons_of_mem i hj)) (f s i) (hf i List.mem_cons_self s hs)

/-- What each visit does for its own slot, and none undoes for another, is done
    for all slots in the end. -/
theorem foldl_establishes {P : ι → σ → Prop} (l : List ι) :
    (∀ i ∈ l, ∀ s, P i (f s i)) → (∀ i ∈ l, ∀ j s, P j s → P j (f s i)) →
      ∀ s, ∀ i ∈ l, P i (l.foldl f s) := by
  induction l with
  | nil => intro _ _ s i hi; exact absurd hi List.not_mem_nil
  | cons i l ih =>
      intro hset hkeep s j hj
      have hkeep' : ∀ k ∈ l, ∀ j s, P j s → P j (f s k) :=
        fun k hk => hkeep k (List.mem_cons_of_mem i hk)
      rcases List.mem_cons.mp hj with rfl | hj
      · -- The first slot is done at once, and the other visits leave it so.
        exact foldl_preserves_mem l (fun k hk s => hkeep' k hk j s) (f s j)
          (hset j List.mem_cons_self s)
      · exact ih (fun k hk => hset k (List.mem_cons_of_mem i hk)) hkeep' (f s i) j hj

/-- A property that each visit keeps exactly when its slot is good is kept by
    visits to distinct slots exactly when all of them are good, provided that
    a visit leaves the other slots as good or bad as they were. -/
theorem foldl_iff {Inv Q : σ → Prop} {good : σ → ι → Prop}
    (hinv : ∀ s i, Inv s → Inv (f s i))
    (hvisit : ∀ s i, Inv s → (Q (f s i) ↔ Q s ∧ good s i))
    (hframe : ∀ s i j, i ≠ j → (good (f s i) j ↔ good s j)) (l : List ι) :
    l.Nodup → ∀ s, Inv s → (Q (l.foldl f s) ↔ Q s ∧ ∀ i ∈ l, good s i) := by
  induction l with
  | nil => intro _ s _; simp only [List.foldl_nil, List.not_mem_nil, false_implies,
      implies_true, and_true]
  | cons i l ih =>
      intro hnodup s hs
      rcases List.nodup_cons.mp hnodup with ⟨hi, hl⟩
      -- The slots still to be visited are judged alike before and after `i`.
      have hrest : (∀ j ∈ l, good (f s i) j) ↔ ∀ j ∈ l, good s j := by
        refine forall_congr' fun j => imp_congr_right fun hj => hframe s i j ?_
        rintro rfl
        exact hi hj
      rw [List.foldl_cons, ih hl (f s i) (hinv s i hs), hvisit s i hs, hrest, and_assoc,
        List.forall_mem_cons]

/-- If each visit changes its own slot only, as `R` says, and gives something
    out, then visits to distinct slots change each of them so, and what they
    give out is gathered in their order. -/
theorem foldl_visits {γ α : Type*} (view : σ → ι → γ) (out : σ → List α)
    (R : ι → γ → γ → List α → Prop)
    (hvisit : ∀ s i, ∃ given, out (f s i) = out s ++ given ∧ R i (view s i) (view (f s i) i) given)
    (hframe : ∀ s i j, j ≠ i → view (f s i) j = view s j) (l : List ι) :
    l.Nodup → ∀ s, ∃ g : ι → List α, out (l.foldl f s) = out s ++ l.flatMap g ∧
      (∀ i ∈ l, R i (view s i) (view (l.foldl f s) i) (g i)) ∧
      ∀ j, j ∉ l → view (l.foldl f s) j = view s j := by
  classical
  induction l with
  | nil =>
      intro _ s
      exact ⟨fun _ => [], (List.append_nil _).symm, fun i hi => absurd hi List.not_mem_nil,
        fun _ _ => rfl⟩
  | cons i l ih =>
      intro hnodup s
      rcases List.nodup_cons.mp hnodup with ⟨hi, hl⟩
      rcases hvisit s i with ⟨given, hgiven, hR⟩
      rcases ih hl (f s i) with ⟨g, hout, hall, hrest⟩
      refine ⟨Function.update g i given, ?_, ?_, ?_⟩
      · have hsame : l.flatMap (Function.update g i given) = l.flatMap g :=
          List.flatMap_congr fun j hj =>
            Function.update_of_ne (ne_of_mem_of_not_mem hj hi) given g
        rw [List.foldl_cons, hout, hgiven, List.flatMap_cons, Function.update_self, hsame,
          List.append_assoc]
      · intro j hj
        by_cases hji : j = i
        · -- The slot visited first is left alone by the others.
          rw [hji, Function.update_self, List.foldl_cons, hrest i hi]
          exact hR
        · have hmem : j ∈ l := (List.mem_cons.mp hj).resolve_left hji
          rw [Function.update_of_ne hji, List.foldl_cons, ← hframe s i j hji]
          exact hall j hmem
      · intro j hj
        rw [List.mem_cons, not_or] at hj
        rw [List.foldl_cons, hrest j hj.2, hframe s i j hj.1]

end Visits

section Gathered

variable {n : Nat} {α : Type*} {g : Fin n → List α} (key : α → Fin n)

theorem filter_flatMap_of_mem (hkey : ∀ i, ∀ a ∈ g i, key a = i) (i : Fin n) (l : List (Fin n)) :
    l.Nodup → (l.flatMap g).filter (fun a => key a = i) = if i ∈ l then g i else [] := by
  induction l with
  | nil => intro _; rfl
  | cons j l ih =>
      intro hnodup
      rcases List.nodup_cons.mp hnodup with ⟨hj, hl⟩
      rw [List.flatMap_cons, List.filter_append, ih hl]
      by_cases hij : i = j
      · -- What comes from the slot itself all stays.
        have hself : (g j).filter (fun a => key a = i) = g j :=
          List.filter_eq_self.mpr fun a ha => decide_eq_true ((hkey j a ha).trans hij.symm)
        rw [hself, if_neg (hij ▸ hj), List.append_nil, if_pos (hij ▸ List.mem_cons_self), hij]
      · have hother : (g j).filter (fun a => key a = i) = [] :=
          List.filter_eq_nil_iff.mpr fun a ha hai =>
            hij ((of_decide_eq_true hai).symm.trans (hkey j a ha))
        rw [hother, List.nil_append]
        simp only [List.mem_cons, hij, false_or]

/-- Of what is gathered from all slots, the part of one slot is what that slot
    gives. -/
theorem filter_flatMap_slot (hkey : ∀ i, ∀ a ∈ g i, key a = i) (i : Fin n) :
    ((List.finRange n).flatMap g).filter (fun a => key a = i) = g i := by
  rw [filter_flatMap_of_mem key hkey i _ (List.nodup_finRange n), if_pos (List.mem_finRange i)]

end Gathered

section Totals

variable {n : Nat} {α : Type*} (f : α → Nat)

/-- The sum of a quantity over the slots of a table. -/
def total (t : Fin n → α) : Nat := ∑ i, f (t i)

/-- Only the slot that changes matters to the change of the sum. -/
theorem total_update (t : Fin n → α) (i : Fin n) (a : α) :
    total f (Function.update t i a) + f (t i) = total f t + f a := by
  have hrest : ∀ j ∈ Finset.univ.erase i, f (Function.update t i a j) = f (t j) := by
    intro j hj
    rw [Function.update_of_ne (Finset.ne_of_mem_erase hj)]
  -- Both sums split into the slot that changes and the same rest.
  have hnew := Finset.add_sum_erase Finset.univ (fun j => f (Function.update t i a j))
    (Finset.mem_univ i)
  have hold := Finset.add_sum_erase Finset.univ (fun j => f (t j)) (Finset.mem_univ i)
  simp only [Function.update_self, Finset.sum_congr rfl hrest] at hnew
  unfold total
  omega

theorem le_total (t : Fin n → α) (i : Fin n) : f (t i) ≤ total f t :=
  Finset.single_le_sum (fun j _ => Nat.zero_le (f (t j))) (Finset.mem_univ i)

theorem total_add (g : α → Nat) (t : Fin n → α) :
    total (fun a => f a + g a) t = total f t + total g t :=
  Finset.sum_add_distrib

/-- A sum of nothing but zeros. -/
theorem total_eq_zero {t : Fin n → α} (h : ∀ i, f (t i) = 0) : total f t = 0 :=
  Finset.sum_eq_zero fun i _ => h i

theorem exists_of_total_pos {t : Fin n → α} (h : 0 < total f t) : ∃ i, 0 < f (t i) := by
  rcases Finset.exists_ne_zero_of_sum_ne_zero (Nat.ne_of_gt h) with ⟨i, _, hi⟩
  exact ⟨i, Nat.pos_of_ne_zero hi⟩

end Totals

end OsLabs
