import Mathlib.Data.List.Sort

/-!
# Sorting by Exchange

Every element is compared with all elements behind it, and the two change
places if the one in front is larger. When an element has been compared with
all others the smallest of them is in its place, and the places before it are
not touched any more.

What an element of the sorted list is can also be said without sorting: by how
many elements are smaller and how many are larger. `middle_eq_iff` does so for
two elements with one between them.

## Main definitions

* `exchange`: One comparison.
* `Placed`: The first elements are where they belong.
* `Leading`: So far nothing is smaller than the element in question.

## Theorems

* `foldlM_range'`: The rule for a counting loop that can fail.
* `exchange_perm`: The elements are the same as before.
* `leading_exchange`: What one comparison gets done.
* `Placed.sorted`: What the last one has got done.
* `middle_eq_iff`: Two elements of a sorted list are equal.
-/

namespace OsLabs

section Loops

variable {σ : Type*} {f : σ → Nat → Option σ} {P : Nat → σ → Prop}

/-- A loop ends in a state where the invariant holds, if each turn comes to an
    end and keeps it. -/
theorem foldlM_range' (first count : Nat) {s : σ}
    (hturn : ∀ k s, first ≤ k → k < first + count → P k s → ∃ s', f s k = some s' ∧ P (k + 1) s')
    (hs : P first s) :
    ∃ s', (List.range' first count).foldlM f s = some s' ∧ P (first + count) s' := by
  induction count generalizing first s with
  | zero => exact ⟨s, rfl, hs⟩
  | succ count ih =>
      rcases hturn first s (Nat.le_refl first) (by omega) hs with ⟨s', hfirst, hs'⟩
      have hrest := ih (first + 1) (fun k s hk hlt => hturn k s (by omega) (by omega)) hs'
      rw [show first + 1 + count = first + (count + 1) by omega] at hrest
      rw [List.range'_succ, List.foldlM_cons, hfirst]
      exact hrest

end Loops

section Exchange

variable {α : Type*} [LinearOrder α] {n : Nat}

/-- Two elements change places if the first one is larger. -/
def exchange (xs : Vector α n) (i j : Nat) (hi : i < n) (hj : j < n) : Vector α n :=
  if xs[i] > xs[j] then xs.swap i j else xs

/-- None of the first elements is larger than one behind it. -/
def Placed (xs : Vector α n) (i : Nat) : Prop :=
  ∀ k m, ∀ (_ : k ≤ m) (_ : m < n), k < i → xs[k] ≤ xs[m]

/-- Beyond that, the next element is not larger than those before `j`. -/
structure Leading (xs : Vector α n) (i j : Nat) (hi : i < n) : Prop where
  placed : Placed xs i
  least : ∀ m, i ≤ m → ∀ hm : m < n, m < j → xs[i] ≤ xs[m]

variable {xs : Vector α n} {i j : Nat}

theorem exchange_perm (hi : i < n) (hj : j < n) :
    (exchange xs i j hi hj).toList.Perm xs.toList := by
  unfold exchange
  split_ifs
  · exact (Vector.swap_perm hi hj).toArray.toList
  · exact List.Perm.refl _

theorem placed_zero : Placed xs 0 := fun k _ _ _ hk => absurd hk (Nat.not_lt_zero k)

theorem leading_self (h : Placed xs i) (hi : i < n) : Leading xs i i hi where
  placed := h
  least m him _ hmi := absurd hmi (by omega)

/-- After a comparison the element is not larger than one more of the others. -/
theorem leading_exchange {hi : i < n} (h : Leading xs i j hi) (hij : i ≤ j) (hj : j < n) :
    Leading (exchange xs i j hi hj) i (j + 1) hi := by
  unfold exchange
  split_ifs with hgt
  · -- The two have changed places, which are both behind the first `i`.
    refine ⟨fun k m hkm hm hk => ?_, fun m him hm hmj => ?_⟩
    · have hother := h.placed k
      rw [Vector.getElem_swap, Vector.getElem_swap, if_neg (by omega), if_neg (by omega)]
      split_ifs
      · exact hother j (by omega) hj hk
      · exact hother i (by omega) hi hk
      · exact hother m hkm hm hk
    · rw [Vector.getElem_swap, Vector.getElem_swap, if_pos rfl]
      split_ifs with hmi hmj'
      · exact le_refl _
      · exact le_of_lt hgt
      · exact le_trans (le_of_lt hgt) (h.least m him hm (by omega))
  · refine ⟨h.placed, fun m him hm hmj => ?_⟩
    by_cases hlast : m = j
    · subst hlast
      exact not_lt.mp hgt
    · exact h.least m him hm (by omega)

/-- Compared with all others, the element is in its place. -/
theorem placed_succ {hi : i < n} (h : Leading xs i n hi) : Placed xs (i + 1) := by
  intro k m hkm hm hk
  by_cases hlast : k = i
  · subst hlast
    exact h.least m hkm hm hm
  · exact h.placed k m hkm hm (by omega)

theorem Placed.sorted (h : Placed xs n) : xs.toList.Pairwise (· ≤ ·) := by
  refine List.pairwise_iff_getElem.mpr fun k m hk hm hkm => ?_
  rw [Vector.length_toList] at hk hm
  rw [Vector.getElem_toList, Vector.getElem_toList]
  exact h k m (Nat.le_of_lt hkm) hm hk

end Exchange

section Ranks

variable {α : Type*} {s : List α} {p : α → Bool} {k : Nat}

theorem countP_split (p : α → Bool) (s : List α) (k : Nat) :
    s.countP p = (s.take k).countP p + (s.drop k).countP p := by
  rw [← List.countP_append, List.take_append_drop]

theorem countP_le_of_drop (h : ∀ x ∈ s.drop k, ¬ p x = true) : s.countP p ≤ k := by
  rw [countP_split p s k, List.countP_eq_zero.mpr h, Nat.add_zero]
  exact Nat.le_trans List.countP_le_length (List.length_take_le k s)

theorem countP_le_of_take (h : ∀ x ∈ s.take k, ¬ p x = true) : s.countP p ≤ s.length - k := by
  rw [countP_split p s k, List.countP_eq_zero.mpr h, Nat.zero_add, ← List.length_drop]
  exact List.countP_le_length

theorem le_countP_of_take (h : ∀ x ∈ s.take k, p x = true) (hk : k ≤ s.length) :
    k ≤ s.countP p := by
  rw [countP_split p s k, List.countP_eq_length.mpr h, List.length_take, Nat.min_eq_left hk]
  exact Nat.le_add_right k _

theorem le_countP_of_drop (h : ∀ x ∈ s.drop k, p x = true) : s.length - k ≤ s.countP p := by
  rw [countP_split p s k, List.countP_eq_length.mpr h, List.length_drop]
  exact Nat.le_add_left _ _

variable [LinearOrder α]

theorem le_of_mem_take (hs : s.SortedLE) {x : α} (hk : k < s.length) (hx : x ∈ s.take (k + 1)) :
    x ≤ s[k] := by
  rcases List.mem_take_iff_getElem.mp hx with ⟨m, hm, rfl⟩
  exact hs.getElem_le_getElem_of_le (by omega)

theorem le_of_mem_drop (hs : s.SortedLE) {x : α} (hk : k < s.length) (hx : x ∈ s.drop k) :
    s[k] ≤ x := by
  rcases List.mem_drop_iff_getElem.mp hx with ⟨m, hm, rfl⟩
  exact hs.getElem_le_getElem_of_le (Nat.le_add_right k m)

/-- Two elements of a sorted list with one between them are equal exactly if
    there is an element that few enough are smaller than and few enough larger
    than. -/
theorem middle_eq_iff (hs : s.SortedLE) (hk : k + 2 < s.length) :
    s[k] = s[k + 2] ↔ ∃ v, s.countP (· < v) < k + 1 ∧ s.countP (v < ·) < s.length - (k + 2) := by
  constructor
  · intro heq
    refine ⟨s[k], ?_, ?_⟩
    · refine Nat.lt_succ_of_le (countP_le_of_drop fun x hx => ?_)
      have hle := le_of_mem_drop hs (by omega) hx
      simpa using hle
    · have hcount : s.countP (s[k] < ·) ≤ s.length - (k + 2 + 1) := by
        refine countP_le_of_take fun x hx => ?_
        have hle := le_of_mem_take hs hk hx
        rw [← heq] at hle
        simpa using hle
      omega
  · rintro ⟨v, hsmaller, hlarger⟩
    -- Otherwise the first elements would all be smaller, or the last ones larger.
    have hlow : v ≤ s[k] := by
      by_contra hlt
      have hcount : k + 1 ≤ s.countP (· < v) := by
        refine le_countP_of_take (fun x hx => ?_) (by omega)
        have hle := le_of_mem_take hs (by omega) hx
        simpa using lt_of_le_of_lt hle (not_le.mp hlt)
      omega
    have hhigh : s[k + 2] ≤ v := by
      by_contra hlt
      have hcount : s.length - (k + 2) ≤ s.countP (v < ·) := by
        refine le_countP_of_drop fun x hx => ?_
        have hle := le_of_mem_drop hs hk hx
        simpa using lt_of_lt_of_le (not_le.mp hlt) hle
      omega
    exact le_antisymm (hs.getElem_le_getElem_of_le (by omega)) (le_trans hhigh hlow)

end Ranks

end OsLabs
