import Mathlib.Data.Set.Card
import OsLabs.Core.Table

/-!
# A Table as a Map

A table of slots in which a slot is free or holds a value under a key is one way
to keep a map from keys to values, as long as no key is held twice. Which slot
holds what is then of no interest.

What may be done to a slot is said here by what it means for the map: a value
is replaced, a key is taken out, or a new key is put into a free slot. Something
that is done to all slots alike is done to all keys. And the table is full when
there are as many keys as slots.

## Main definitions

* `Represents`: A table holds a map.
* `Apart`: No key is held by two slots.
* `heldKeys`: The keys in the order of the slots.

## Theorems

* `Represents.set`: A slot is rewritten under its key, or filled under a new one.
* `Represents.clear`: A slot is freed.
* `Represents.map`: All slots are treated alike.
* `Represents.full_iff`: When no slot is free.
* `Represents.keys`: The keys are those of the map.
-/

namespace OsLabs

section Keyed

variable {n : Nat} {α κ β : Type*} (read : α → Option (κ × β))

/-- The table holds the map, where `read` tells what a slot holds. -/
def Represents (t : Fin n → α) (d : κ → Option β) : Prop :=
  ∀ k b, d k = some b ↔ ∃ i, read (t i) = some (k, b)

/-- No key is held by two slots. -/
def Apart (t : Fin n → α) : Prop :=
  ∀ i j k b c, read (t i) = some (k, b) → read (t j) = some (k, c) → i = j

/-- The keys in the order of the slots that hold them. -/
def heldKeys (t : Fin n → α) : List κ :=
  (List.finRange n).filterMap fun i => (read (t i)).map Prod.fst

variable {read} {t : Fin n → α} {d : κ → Option β}

theorem Represents.absent (h : Represents read t d) {k : κ} (hk : d k = none) (i : Fin n) (b : β) :
    read (t i) ≠ some (k, b) := by
  intro hi
  have hsome := (h k b).mpr ⟨i, hi⟩
  rw [hk] at hsome
  cases hsome

theorem Apart.other (h : Apart read t) {i j : Fin n} (hij : j ≠ i) {k : κ} {b c : β}
    (hi : read (t i) = some (k, b)) : read (t j) ≠ some (k, c) :=
  fun hj => hij (h j i k c b hj hi)

section Changes

variable [DecidableEq κ]

/-- A slot is rewritten under the key it holds, or a free slot is filled under a
    key that is not held. -/
theorem Represents.set (h : Represents read t d) (hapart : Apart read t) {i : Fin n} {a : α}
    {k : κ} {b : β} (ha : read a = some (k, b))
    (hi : (∃ c, read (t i) = some (k, c)) ∨ read (t i) = none ∧ d k = none) :
    Represents read (Function.update t i a) (Function.update d k (some b)) := by
  intro k' b'
  -- The other slots do not hold the key.
  have hothers : ∀ j, j ≠ i → ∀ c, read (t j) ≠ some (k, c) := by
    intro j hij c
    rcases hi with ⟨c', hold⟩ | ⟨_, hnone⟩
    · exact hapart.other hij hold
    · exact h.absent hnone j c
  by_cases hk : k' = k
  · rw [hk, Function.update_self, Option.some.injEq]
    constructor
    · rintro rfl
      exact ⟨i, by rw [Function.update_self, ha]⟩
    · rintro ⟨j, hj⟩
      by_cases hij : j = i
      · rw [hij, Function.update_self, ha, Option.some.injEq, Prod.mk.injEq] at hj
        exact hj.2
      · rw [Function.update_of_ne hij] at hj
        exact absurd hj (hothers j hij b')
  · rw [Function.update_of_ne hk, h k' b']
    constructor
    · rintro ⟨j, hj⟩
      refine ⟨j, ?_⟩
      by_cases hij : j = i
      · rw [hij] at hj
        rcases hi with ⟨c, hold⟩ | ⟨hfree, _⟩
        · rw [hold, Option.some.injEq, Prod.mk.injEq] at hj
          exact absurd hj.1.symm hk
        · rw [hfree] at hj
          cases hj
      · rw [Function.update_of_ne hij]
        exact hj
    · rintro ⟨j, hj⟩
      by_cases hij : j = i
      · rw [hij, Function.update_self, ha, Option.some.injEq, Prod.mk.injEq] at hj
        exact absurd hj.1.symm hk
      · rw [Function.update_of_ne hij] at hj
        exact ⟨j, hj⟩

/-- A slot is freed, and its key with it. -/
theorem Represents.clear (h : Represents read t d) (hapart : Apart read t) {i : Fin n} {a : α}
    {k : κ} {b : β} (hi : read (t i) = some (k, b)) (ha : read a = none) :
    Represents read (Function.update t i a) (Function.update d k none) := by
  intro k' b'
  by_cases hk : k' = k
  · rw [hk, Function.update_self]
    refine iff_of_false (by simp) ?_
    rintro ⟨j, hj⟩
    by_cases hij : j = i
    · rw [hij, Function.update_self, ha] at hj
      cases hj
    · rw [Function.update_of_ne hij] at hj
      exact hapart.other hij hi hj
  · rw [Function.update_of_ne hk, h k' b']
    constructor
    · rintro ⟨j, hj⟩
      have hij : j ≠ i := by
        rintro rfl
        rw [hi, Option.some.injEq, Prod.mk.injEq] at hj
        exact hk hj.1.symm
      exact ⟨j, by rw [Function.update_of_ne hij]; exact hj⟩
    · rintro ⟨j, hj⟩
      by_cases hij : j = i
      · rw [hij, Function.update_self, ha] at hj
        cases hj
      · rw [Function.update_of_ne hij] at hj
        exact ⟨j, hj⟩

end Changes

/-- What is done to each slot, according to its key and its value, is done to each
    key. -/
theorem Represents.map (h : Represents read t d) {t' : Fin n → α} (f : κ → β → Option β)
    (hslots : ∀ i, read (t' i) = (read (t i)).bind fun p => (f p.1 p.2).map fun b => (p.1, b)) :
    Represents read t' fun k => (d k).bind (f k) := by
  intro k b
  constructor
  · intro hbind
    rcases Option.bind_eq_some_iff.mp hbind with ⟨b', hd, hf⟩
    rcases (h k b').mp hd with ⟨i, hi⟩
    refine ⟨i, ?_⟩
    rw [hslots i, hi, Option.bind_some, hf]
    rfl
  · rintro ⟨i, hi⟩
    rw [hslots i] at hi
    rcases Option.bind_eq_some_iff.mp hi with ⟨⟨k', b'⟩, hread, hmap⟩
    rcases Option.map_eq_some_iff.mp hmap with ⟨b'', hf, hpair⟩
    obtain ⟨rfl, rfl⟩ : k' = k ∧ b'' = b := Prod.mk.inj hpair
    exact Option.bind_eq_some_iff.mpr ⟨b', (h k' b').mpr ⟨i, hread⟩, hf⟩

/-- The keys held are those of the map, and each is held once. -/
theorem Represents.keys (h : Represents read t d) (hapart : Apart read t) :
    (heldKeys read t).Nodup ∧ ∀ k, k ∈ heldKeys read t ↔ d k ≠ none := by
  unfold heldKeys
  constructor
  · refine (List.nodup_finRange n).filterMap ?_
    intro i j k hi hj
    rcases Option.map_eq_some_iff.mp hi with ⟨⟨k₁, b⟩, hb, rfl⟩
    rcases Option.map_eq_some_iff.mp hj with ⟨⟨k₂, c⟩, hc, hk⟩
    rw [show k₂ = k₁ from hk] at hc
    exact hapart i j k₁ b c hb hc
  · intro k
    rw [List.mem_filterMap, Option.ne_none_iff_exists']
    constructor
    · rintro ⟨i, _, hi⟩
      rcases Option.map_eq_some_iff.mp hi with ⟨⟨k', b⟩, hb, rfl⟩
      exact ⟨b, (h k' b).mpr ⟨i, hb⟩⟩
    · rintro ⟨b, hb⟩
      rcases (h k b).mp hb with ⟨i, hi⟩
      exact ⟨i, List.mem_finRange i, by rw [hi]; rfl⟩

/-- No slot is free exactly when there are as many keys as slots. -/
theorem Represents.full_iff (h : Represents read t d) (hapart : Apart read t) :
    (∀ i, read (t i) ≠ none) ↔ {k | d k ≠ none}.ncard = n := by
  classical
  rcases h.keys hapart with ⟨hnodup, hmem⟩
  have hset : {k | d k ≠ none} = ((heldKeys read t).toFinset : Set κ) := by
    ext k
    simp [hmem k]
  have hlength : (heldKeys read t).length
      = ((List.finRange n).filter fun i => (read (t i)).isSome).length := by
    unfold heldKeys
    rw [← List.countP_eq_length_filter, List.length_filterMap_eq_countP]
    exact List.countP_congr fun i _ => by simp
  rw [hset, Set.ncard_coe_finset, List.toFinset_card_of_nodup hnodup, hlength]
  constructor
  · intro hall
    rw [List.filter_eq_self.mpr fun i _ => Option.isSome_iff_ne_none.mpr (hall i),
      List.length_finRange]
  · intro hcount i
    have hsame := (List.filter_sublist (p := fun i => (read (t i)).isSome)
      (l := List.finRange n)).eq_of_length (by rw [hcount, List.length_finRange])
    have hi := List.filter_eq_self.mp hsame i (List.mem_finRange i)
    exact Option.isSome_iff_ne_none.mp hi

end Keyed

end OsLabs
