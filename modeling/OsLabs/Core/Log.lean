import Mathlib.Data.List.Basic
import Mathlib.Logic.Function.Basic

/-!
# Logs of Several Parties

Several parties write into one log, and each entry carries the name of the
party that made it. A party does something with each of its entries later, one
at a time and in order, and until then it has the entry in hand.

`Carried` says that no entry is lost or repeated on the way: what a party has
finished, followed by what it has in hand, is what the log has of it. Where a
party keeps what it has in hand is up to the program, so `hand` reads it off
the party's place in a table of places.

## Main definitions

* `entriesOf`: The entries of one party.
* `Carried`: Each party has finished its entries or has them in hand.

## Theorems

* `entriesOf_append`: What one more entry adds.
* `Carried.take`: A party makes an entry and has it in hand.
* `Carried.move`: A party moves on, with or without finishing an entry.
-/

namespace OsLabs

section Log

variable {ι π α : Type*} [DecidableEq ι] {hand : π → List α}
  {log : List (ι × α)} {finished : ι → List α} {t : ι → π}

/-- The entries of one party, in order. -/
def entriesOf (log : List (ι × α)) (i : ι) : List α := (log.filter fun e => e.1 = i).map Prod.snd

theorem entriesOf_append (log : List (ι × α)) (i j : ι) (a : α) :
    entriesOf (log ++ [(i, a)]) j = entriesOf log j ++ if i = j then [a] else [] := by
  unfold entriesOf
  rw [List.filter_append, List.map_append]
  by_cases hij : i = j <;> simp [hij]

/-- Each party has finished its entries, in order, but for those it has in
    hand. -/
def Carried (hand : π → List α) (log : List (ι × α)) (finished : ι → List α) (t : ι → π) : Prop :=
  ∀ i, finished i ++ hand (t i) = entriesOf log i

/-- A party that moves keeps its promise if what it has in hand changes with
    what it has finished. The other parties are not concerned. -/
theorem Carried.move (h : Carried hand log finished t) (i : ι) (pc : π) (done : List α)
    (hsame : done ++ hand pc = finished i ++ hand (t i)) :
    Carried hand log (Function.update finished i done) (Function.update t i pc) := by
  intro j
  by_cases hj : j = i
  · rw [hj, Function.update_self, Function.update_self, hsame]
    exact h i
  · rw [Function.update_of_ne hj, Function.update_of_ne hj]
    exact h j

/-- A party that moves with the same in hand. -/
theorem Carried.stay (h : Carried hand log finished t) (i : ι) (pc : π)
    (hsame : hand pc = hand (t i)) : Carried hand log finished (Function.update t i pc) := by
  have hmove := h.move i pc (finished i) (by rw [hsame])
  rw [Function.update_eq_self] at hmove
  exact hmove

/-- A party that makes an entry has one more in hand. -/
theorem Carried.take (h : Carried hand log finished t) (i : ι) (pc : π) (a : α)
    (hmore : hand pc = hand (t i) ++ [a]) :
    Carried hand (log ++ [(i, a)]) finished (Function.update t i pc) := by
  intro j
  rw [entriesOf_append, ← h j]
  by_cases hj : j = i
  · rw [hj, Function.update_self, if_pos rfl, hmore, List.append_assoc]
  · rw [Function.update_of_ne hj, if_neg (Ne.symm hj), List.append_nil]

end Log

end OsLabs
