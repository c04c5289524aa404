import OsLabs.Core.Double
import OsLabs.Core.Exchange

/-!
# The Median

`kolos/test_1/zad_01/bibl1.c`: the function of a library that returns the median
of an array. It sorts a copy of the array by exchange and takes what is in the
middle.

An access outside of the copy is not defined, so the function returns nothing
then. Of an array with an odd number of elements the result is the median. If
the number is even, the two elements in the middle are those before and at
`n / 2`, but the function takes the one at `n / 2` and the one behind it. Of two
elements there is none behind. Of more there is, and the mean is right only if
the element behind is equal to the one before.

Neither the sum of two `int` nor its half is rounded, so that what is returned
is the mean itself.

## Main definitions

* `Frame`: The variables of `mediana`, with the array it is called with.
* `sortTab`, `middle`, `mediana`: The function and its two parts.
* `median`: The median of an array.
* `Correct`: The median is returned and the array is left as it was.
* `Level`: Three elements of the sorted array are equal, in terms of the array.

## Theorems

* `sortTab_spec`: The copy is sorted.
* `correct_odd`, `correct_even_iff`: What is returned.
* `mediana_iff`: When it is the median.
* `mediana_wrong`: Two elements, and four.
-/

namespace OsLabs

namespace Kolos

namespace Median

open Double

instance int32LinearOrder : LinearOrder Int32 where
  le_refl _ := Int32.le_refl _
  le_trans _ _ _ := Int32.le_trans
  lt_iff_le_not_ge _ _ := by rw [Int32.not_le, and_iff_right_of_imp Int32.le_of_lt]
  le_antisymm _ _ := Int32.le_antisymm
  le_total := Int32.le_total
  toDecidableLE := inferInstance
  toDecidableEq := inferInstance
  toDecidableLT := inferInstance

/-- The variables of `mediana`, with the array it is called with. -/
structure Frame (n : Nat) where
  tab : Vector Int32 n
  new_tab : Vector Int32 n
  tmp : Int32

/-- What `mediana` returns, and the array it was called with. -/
structure Outcome (n : Nat) where
  value : Float
  tab : Vector Int32 n

variable {n : Nat}

/-- `new_tab[k] = v`. -/
def Frame.store (s : Frame n) (k : Nat) (v : Int32) : Option (Frame n) :=
  if h : k < n then some { s with new_tab := s.new_tab.set k v } else none

/-- `new_tab[i] = tab[i]`. -/
def copyTurn (s : Frame n) (i : Nat) : Option (Frame n) := do
  let v ← s.tab[i]?
  s.store i v

/-- The body of the inner loop. -/
def exchangeTurn (i : Nat) (s : Frame n) (j : Nat) : Option (Frame n) := do
  let x ← s.new_tab[i]?
  let y ← s.new_tab[j]?
  if x > y then
    let s := { s with tmp := x }
    let s ← s.store i y
    s.store j s.tmp
  else some s

/-- The body of the outer loop. -/
def sortTurn (s : Frame n) (i : Nat) : Option (Frame n) :=
  (List.range' i (n - i)).foldlM (exchangeTurn i) s

/-- The loops of `mediana`. -/
def sortTab (s : Frame n) : Option (Frame n) := do
  let s ← (List.range' 0 n).foldlM copyTurn s
  (List.range' 0 n).foldlM sortTurn s

/-- What `mediana` returns after the loops. -/
def middle (s : Frame n) : Option (Outcome n) :=
  if n % 2 ≠ 0 then do
    let x ← s.new_tab[n / 2]?
    some { value := ofInt32 x, tab := s.tab }
  else do
    let x ← s.new_tab[n / 2]?
    let y ← s.new_tab[n / 2 + 1]?
    some { value := (ofInt32 x + ofInt32 y) / ofInt32 2, tab := s.tab }

/-- `mediana`, with what is in its variables before they are assigned. -/
def mediana (tab new_tab : Vector Int32 n) (tmp : Int32) : Option (Outcome n) :=
  (sortTab { tab := tab, new_tab := new_tab, tmp := tmp }).bind middle

/-- The elements in their order. -/
def sorted (tab : Vector Int32 n) : List Int32 := tab.toList.mergeSort fun x y => x ≤ y

/-- The median of an array. -/
def median (tab : Vector Int32 n) : ℚ :=
  let value := fun k => (((sorted tab).getD k 0).toInt : ℚ)
  if n % 2 = 1 then value (n / 2) else (value (n / 2 - 1) + value (n / 2)) / 2

/-- The median is returned, nothing outside of `new_tab` is accessed, and the
    array is left as it was. -/
def Correct (tab : Vector Int32 n) (out : Option (Outcome n)) : Prop :=
  ∃ o, out = some o ∧ IsDouble o.value (median tab) ∧ o.tab = tab

/-- Fewer than `n / 2` elements are smaller than some number, and fewer than
    `n / 2 - 1` are larger. -/
def Level (tab : Vector Int32 n) : Prop :=
  ∃ v, tab.toList.countP (· < v) < n / 2 ∧ tab.toList.countP (v < ·) < n / 2 - 1

/-- The first elements have been copied. -/
structure Copied (tab : Vector Int32 n) (k : Nat) (s : Frame n) : Prop where
  tab_eq : s.tab = tab
  copied : ∀ m, ∀ _ : m < n, m < k → s.new_tab[m] = tab[m]

/-- The copy has the elements of the array, and the first of them are in their
    places. -/
structure Sorting (tab : Vector Int32 n) (i : Nat) (s : Frame n) : Prop where
  tab_eq : s.tab = tab
  perm : s.new_tab.toList.Perm tab.toList
  placed : Placed s.new_tab i

/-- One more element has been compared with those before `j`. -/
structure Comparing (tab : Vector Int32 n) (i : Nat) (hi : i < n) (j : Nat) (s : Frame n) :
    Prop where
  tab_eq : s.tab = tab
  perm : s.new_tab.toList.Perm tab.toList
  leading : Leading s.new_tab i j hi

section Loops

variable {s : Frame n} {tab : Vector Int32 n} {i j : Nat}

theorem copyTurn_spec (hi : i < n) :
    copyTurn s i = some { s with new_tab := s.new_tab.set i s.tab[i] } := by
  rw [copyTurn, Vector.getElem?_eq_getElem hi]
  exact dif_pos hi

theorem copied_turn (h : Copied tab i s) (hi : i < n) :
    ∃ s', copyTurn s i = some s' ∧ Copied tab (i + 1) s' := by
  refine ⟨_, copyTurn_spec hi, h.tab_eq, fun m hm hmi => ?_⟩
  rw [Vector.getElem_set]
  split_ifs with him
  · subst him
    rw [h.tab_eq]
  · exact h.copied m hm (by omega)

/-- The first loop copies the array. -/
theorem copied_loop (s : Frame n) :
    ∃ s', (List.range' 0 n).foldlM copyTurn s = some s' ∧ s'.tab = s.tab ∧ s'.new_tab = s.tab := by
  have hstart : Copied s.tab 0 s := ⟨rfl, fun m _ hm => absurd hm (Nat.not_lt_zero m)⟩
  rcases foldlM_range' (P := Copied s.tab) 0 n
    (fun k s' _ hk hs' => copied_turn hs' (by omega)) hstart with ⟨s', hrun, hs'⟩
  exact ⟨s', hrun, hs'.tab_eq, Vector.ext fun m hm => hs'.copied m hm (by omega)⟩

/-- The three assignments exchange the elements. -/
theorem exchangeTurn_spec (hi : i < n) (hj : j < n) :
    ∃ s', exchangeTurn i s j = some s' ∧ s'.tab = s.tab ∧
      s'.new_tab = exchange s.new_tab i j hi hj := by
  unfold exchangeTurn exchange
  rw [Vector.getElem?_eq_getElem hi, Vector.getElem?_eq_getElem hj]
  simp only [Option.bind_eq_bind, Option.bind_some]
  by_cases hgt : s.new_tab[i] > s.new_tab[j]
  · rw [if_pos hgt, if_pos hgt]
    refine ⟨{ s with
      new_tab := (s.new_tab.set i s.new_tab[j]).set j s.new_tab[i]
      tmp := s.new_tab[i] }, ?_, rfl, ?_⟩
    · simp only [Frame.store, dif_pos hi, dif_pos hj, Option.bind_some]
    · refine Vector.ext fun m hm => ?_
      rw [Vector.getElem_swap, Vector.getElem_set, Vector.getElem_set]
      split_ifs <;> first | rfl | omega | simp_all
  · rw [if_neg hgt, if_neg hgt]
    exact ⟨s, rfl, rfl, rfl⟩

theorem comparing_turn {hi : i < n} (h : Comparing tab i hi j s) (hij : i ≤ j) (hj : j < n) :
    ∃ s', exchangeTurn i s j = some s' ∧ Comparing tab i hi (j + 1) s' := by
  rcases exchangeTurn_spec (s := s) hi hj with ⟨s', hturn, htab, hnew⟩
  refine ⟨s', hturn, htab.trans h.tab_eq, ?_, ?_⟩
  · rw [hnew]
    exact (exchange_perm hi hj).trans h.perm
  · rw [hnew]
    exact leading_exchange h.leading hij hj

/-- One turn of the outer loop puts one more element in its place. -/
theorem sorting_turn (h : Sorting tab i s) (hi : i < n) :
    ∃ s', sortTurn s i = some s' ∧ Sorting tab (i + 1) s' := by
  have hstart : Comparing tab i hi i s := ⟨h.tab_eq, h.perm, leading_self h.placed hi⟩
  rcases foldlM_range' (P := Comparing tab i hi) i (n - i)
    (fun j s' hij hj hs' => comparing_turn hs' hij (by omega)) hstart with ⟨s', hrun, hs'⟩
  -- The inner loop has gone to the end of the array.
  rw [show i + (n - i) = n by omega] at hs'
  exact ⟨s', hrun, hs'.tab_eq, hs'.perm, placed_succ hs'.leading⟩

theorem sortedLE_sorted (tab : Vector Int32 n) : (sorted tab).SortedLE := List.sortedLE_mergeSort

theorem sorted_perm (tab : Vector Int32 n) : (sorted tab).Perm tab.toList :=
  List.mergeSort_perm _ _

theorem length_sorted (tab : Vector Int32 n) : (sorted tab).length = n := by
  rw [(sorted_perm tab).length_eq, Vector.length_toList]

/-- The loops leave the elements of the array in their order. -/
theorem sortTab_spec (s : Frame n) :
    ∃ s', sortTab s = some s' ∧ s'.tab = s.tab ∧ s'.new_tab.toList = sorted s.tab := by
  rcases copied_loop s with ⟨s₁, hcopy, htab, hnew⟩
  have hstart : Sorting s.tab 0 s₁ := ⟨htab, by rw [hnew], placed_zero⟩
  rcases foldlM_range' (P := Sorting s.tab) 0 n
    (fun k s' _ hk hs' => sorting_turn hs' (by omega)) hstart with ⟨s', hrun, hs'⟩
  rw [Nat.zero_add] at hs'
  refine ⟨s', ?_, hs'.tab_eq, ?_⟩
  · rw [sortTab, hcopy]
    exact hrun
  · -- There is only one order for them.
    exact List.Perm.eq_of_pairwise (fun _ _ _ _ => le_antisymm) hs'.placed.sorted
      (sortedLE_sorted s.tab).pairwise (hs'.perm.trans (sorted_perm s.tab).symm)

end Loops

section Middle

variable {tab : Vector Int32 n}

/-- What is read from the copy is an element of the sorted array. -/
theorem mediana_eq (tab new_tab : Vector Int32 n) (tmp : Int32) :
    mediana tab new_tab tmp =
      if n % 2 ≠ 0 then (sorted tab)[n / 2]?.map fun x => { value := ofInt32 x, tab := tab }
      else (sorted tab)[n / 2]?.bind fun x => (sorted tab)[n / 2 + 1]?.map fun y =>
        { value := (ofInt32 x + ofInt32 y) / ofInt32 2, tab := tab } := by
  rcases sortTab_spec { tab := tab, new_tab := new_tab, tmp := tmp } with ⟨s, hrun, htab, hnew⟩
  have hread : ∀ k : Nat, s.new_tab[k]? = (sorted tab)[k]? := by
    intro k
    rw [← hnew, Vector.getElem?_toList]
  have htab' : s.tab = tab := htab
  rw [mediana, hrun, Option.bind_some, middle]
  simp only [hread, htab', Option.bind_eq_bind]
  split_ifs
  · cases (sorted tab)[n / 2]? <;> rfl
  · cases (sorted tab)[n / 2]? with
    | none => rfl
    | some x => cases (sorted tab)[n / 2 + 1]? <;> rfl

/-- The mean of two numbers is not rounded. -/
theorem isDouble_mean (x y : Int32) :
    IsDouble ((ofInt32 x + ofInt32 y) / ofInt32 2) ((x.toInt + y.toInt) / 2) := by
  have hx := And.intro x.le_toInt x.toInt_lt
  have hy := And.intro y.le_toInt y.toInt_lt
  have hsmall : (x.toInt + y.toInt).natAbs < 2 ^ 53 := by omega
  have hsum : Exact ((x.toInt : ℚ) + y.toInt) := by
    rw [← Int.cast_add]
    exact exact_int hsmall
  have hhalf : Exact (((x.toInt : ℚ) + y.toInt) / 2) := by
    rw [← Int.cast_add, div_eq_mul_inv, ← zpow_neg_one]
    exact exact_mul_pow hsmall (by decide) (by decide)
  exact isDouble_half (isDouble_add (isDouble_ofInt32 x) (isDouble_ofInt32 y) hsum) hhalf

/-- Of an odd number of elements the median is returned. -/
theorem correct_odd (hodd : n % 2 = 1) (new_tab : Vector Int32 n) (tmp : Int32) :
    Correct tab (mediana tab new_tab tmp) := by
  have hlen := length_sorted tab
  have hmid : (sorted tab)[n / 2]? = some (sorted tab)[n / 2] :=
    List.getElem?_eq_getElem (by omega)
  refine ⟨{ value := ofInt32 (sorted tab)[n / 2], tab := tab }, ?_, ?_, rfl⟩
  · rw [mediana_eq, if_pos (by omega), hmid]
    rfl
  · rw [median, if_pos hodd]
    simp only [List.getD_eq_getElem?_getD, hmid, Option.getD_some]
    exact isDouble_ofInt32 _

/-- Of an even number it is returned exactly if the array is level. -/
theorem correct_even_iff (heven : n % 2 = 0) (new_tab : Vector Int32 n) (tmp : Int32) :
    Correct tab (mediana tab new_tab tmp) ↔ Level tab := by
  have hlen := length_sorted tab
  by_cases hshort : n < 4
  · -- There is no element behind the middle.
    have hnone : (sorted tab)[n / 2 + 1]? = none := List.getElem?_eq_none (by omega)
    have hout : mediana tab new_tab tmp = none := by
      rw [mediana_eq, if_neg (by omega), hnone]
      cases (sorted tab)[n / 2]? <;> rfl
    refine ⟨?_, ?_⟩
    · rintro ⟨o, ho, -⟩
      rw [hout] at ho
      cases ho
    · rintro ⟨v, -, hlarger⟩
      omega
  · obtain ⟨k, hk⟩ : ∃ k, n / 2 = k + 1 := ⟨n / 2 - 1, by omega⟩
    have hfirst : (sorted tab)[k]? = some (sorted tab)[k] := List.getElem?_eq_getElem (by omega)
    have hsecond : (sorted tab)[k + 1]? = some (sorted tab)[k + 1] :=
      List.getElem?_eq_getElem (by omega)
    have hthird : (sorted tab)[k + 2]? = some (sorted tab)[k + 2] :=
      List.getElem?_eq_getElem (by omega)
    have hmedian : median tab
        = (((sorted tab)[k].toInt : ℚ) + (sorted tab)[k + 1].toInt) / 2 := by
      rw [median, if_neg (by omega), hk, Nat.add_sub_cancel]
      simp only [List.getD_eq_getElem?_getD, hfirst, hsecond, Option.getD_some]
    have hout : mediana tab new_tab tmp = some
        { value := (ofInt32 (sorted tab)[k + 1] + ofInt32 (sorted tab)[k + 2]) / ofInt32 2
          tab := tab } := by
      rw [mediana_eq, if_neg (by omega), hk, hsecond, hthird]
      rfl
    have hmean := isDouble_mean (sorted tab)[k + 1] (sorted tab)[k + 2]
    -- The two means have one element in common.
    have hcorrect : Correct tab (mediana tab new_tab tmp) ↔
        (sorted tab)[k] = (sorted tab)[k + 2] := by
      rw [hout, Correct, hmedian]
      constructor
      · rintro ⟨o, ho, hvalue, -⟩
        rw [← Option.some.inj ho] at hvalue
        have heq := hmean.unique hvalue
        rw [div_left_inj' two_ne_zero, add_comm, add_left_inj] at heq
        exact (Int32.toInt_inj.mp (by exact_mod_cast heq)).symm
      · intro heq
        refine ⟨_, rfl, ?_, rfl⟩
        rw [heq, add_comm ((sorted tab)[k + 2].toInt : ℚ)]
        exact hmean
    rw [hcorrect, middle_eq_iff (sortedLE_sorted tab) (by omega), Level, hlen,
      hk, Nat.add_sub_cancel]
    have hrest : n - (k + 2) = k := by omega
    simp only [hrest, (sorted_perm tab).countP_eq]

end Middle

/-- The median is returned exactly if the number of elements is odd or the three
    elements around the middle of the sorted array are equal. -/
theorem mediana_iff (tab new_tab : Vector Int32 n) (tmp : Int32) :
    Correct tab (mediana tab new_tab tmp) ↔ n % 2 = 1 ∨ Level tab := by
  by_cases hodd : n % 2 = 1
  · exact iff_of_true (correct_odd hodd new_tab tmp) (Or.inl hodd)
  · rw [correct_even_iff (by omega), or_iff_right hodd]

/-- Of 1 and 2 none is behind the second, and of 1, 2, 3 and 10 the mean is that
    of 3 and 10. -/
theorem mediana_wrong :
    ¬ Correct #v[1, 2] (mediana #v[1, 2] #v[0, 0] 0) ∧
      ¬ Correct #v[1, 2, 3, 10] (mediana #v[1, 2, 3, 10] #v[0, 0, 0, 0] 0) := by
  constructor
  · rw [correct_even_iff rfl]
    rintro ⟨v, -, hlarger⟩
    exact absurd hlarger (Nat.not_lt_zero _)
  · rw [correct_even_iff rfl]
    rintro ⟨v, hsmaller, hlarger⟩
    -- Only the last element or a larger number has so few behind it.
    have hv : (10 : Int32) ≤ v := by
      by_contra hlt
      have hlast : v < 10 := not_le.mp hlt
      change [(1 : Int32), 2, 3, 10].countP (v < ·) < 1 at hlarger
      simp only [List.countP_cons, hlast, decide_true, if_true] at hlarger
      omega
    have hone : (1 : Int32) < v := lt_of_lt_of_le (by decide) hv
    have htwo : (2 : Int32) < v := lt_of_lt_of_le (by decide) hv
    change [(1 : Int32), 2, 3, 10].countP (· < v) < 2 at hsmaller
    simp only [List.countP_cons, hone, htwo, decide_true, if_true] at hsmaller
    omega

end Median

end Kolos

end OsLabs
