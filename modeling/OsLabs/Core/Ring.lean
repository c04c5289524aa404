import Mathlib.Data.List.Basic
import Mathlib.Data.List.Nodup
import Mathlib.Logic.Function.Basic

/-!
# Ring Buffers

A ring buffer is an array read through a sequence of positions. Writers and
readers each walk the same sequence, the reader behind the writer, and what
the buffer holds is the stretch of the sequence between them. Nothing about
that needs the sequence to be `k % n`: it is enough that a position about to
be written does not occur in the stretch, so the facts here take the sequence
as a parameter and ask for exactly that. The usual circular sequence is the
instance `circular`, and `circular_ne` is the only arithmetic it needs.

`Logged` is the invariant of a ring with a history of what was written and what
was read: the first is the second and, after it, what the ring holds. A write
and a read keep it, each under the one condition that makes it harmless.

The specification a ring buffer is compared with is the bounded queue, a list
with a capacity.

## Main definitions

* `window`: The stretch of the array between reader and writer.
* `Logged`: The ring holds what was written and not yet read.
* `circular`: The positions of a ring of a given size.
* `nextSlot`: The slot after a given one.
* `fifoAdd`: Adding to a bounded queue.
* `fifoPop`: Removing from a queue.

## Theorems

* `window_push`: Writing just past the window extends it.
* `window_pop`: The first entry of a window is the oldest.
* `window_update`: A write outside the window leaves it alone.
* `Logged.write`, `Logged.read`: What keeps a history true.
* `Logged.getElem?`: What waits stands at its position.
* `nextSlot_circular`: Slot after slot is the circular sequence.
* `circular_ne`: Circular positions less than a turn apart differ.
* `circular_nodup`: So no position occurs twice within a turn.
-/

namespace OsLabs

section Window

variable {ι α : Type*} (pos : Nat → ι)

/-- The `len` entries of the array from position number `start` on. -/
def window (slots : ι → α) (start len : Nat) : List α :=
  (List.range len).map fun k => slots (pos (start + k))

theorem window_zero (slots : ι → α) (start : Nat) : window pos slots start 0 = [] := rfl

/-- A write to a position outside the window leaves the window alone. -/
theorem window_update [DecidableEq ι] (slots : ι → α) (start len : Nat) (i : ι) (a : α)
    (hi : ∀ k, k < len → pos (start + k) ≠ i) :
    window pos (Function.update slots i a) start len = window pos slots start len := by
  refine List.map_congr_left fun k hk => ?_
  rw [Function.update_of_ne (hi k (List.mem_range.mp hk))]

/-- Writing the position just past the window extends it, provided that
    position does not already occur in it. -/
theorem window_push [DecidableEq ι] (slots : ι → α) (start len : Nat) (a : α)
    (hfree : ∀ k, k < len → pos (start + k) ≠ pos (start + len)) :
    window pos (Function.update slots (pos (start + len)) a) start (len + 1)
      = window pos slots start len ++ [a] := by
  -- The write does not touch the entries already in the window.
  have hold := window_update pos slots start len (pos (start + len)) a hfree
  rw [window, List.range_succ, List.map_append, List.map_singleton, Function.update_self]
  rw [window] at hold
  rw [hold]

/-- The first entry of a window is the oldest, and the rest of it starts one
    position later. -/
theorem window_pop (slots : ι → α) (start len : Nat) :
    window pos slots start (len + 1)
      = slots (pos start) :: window pos slots (start + 1) len := by
  rw [window, window, List.range_succ_eq_map, List.map_cons, List.map_map, Nat.add_zero]
  congr 1
  refine List.map_congr_left fun k _ => ?_
  simp only [Function.comp_apply, Nat.succ_eq_add_one]
  rw [show start + (k + 1) = start + 1 + k by omega]

/-- What was stored is what was taken and, after it, what stands in the ring
    from there on. -/
def Logged (slots : ι → α) (taken stored : List α) : Prop :=
  taken ++ window pos slots taken.length (stored.length - taken.length) = stored

variable {pos} {slots : ι → α} {taken stored : List α}

theorem Logged.length_le (h : Logged pos slots taken stored) : taken.length ≤ stored.length := by
  rw [← h, List.length_append]
  exact Nat.le_add_right _ _

/-- A write of the next position is harmless when nothing that waits stands
    there. -/
theorem Logged.write [DecidableEq ι] (h : Logged pos slots taken stored) (a : α)
    (hfree : ∀ k, taken.length ≤ k → k < stored.length → pos k ≠ pos stored.length) :
    Logged pos (Function.update slots (pos stored.length) a) taken (stored ++ [a]) := by
  have hle := h.length_le
  have hat : taken.length + (stored.length - taken.length) = stored.length := by omega
  have hpush := window_push pos slots taken.length (stored.length - taken.length) a
    fun k hk => by rw [hat]; exact hfree _ (by omega) (by omega)
  rw [hat] at hpush
  rw [Logged, List.length_append, List.length_singleton,
    show stored.length + 1 - taken.length = stored.length - taken.length + 1 by omega, hpush,
    ← List.append_assoc, h]

/-- While something waits, the oldest of it stands at the next position to
    read. -/
theorem Logged.next (h : Logged pos slots taken stored) (hlt : taken.length < stored.length) :
    taken ++ slots (pos taken.length) ::
      window pos slots (taken.length + 1) (stored.length - (taken.length + 1)) = stored := by
  have hpop := window_pop pos slots taken.length (stored.length - (taken.length + 1))
  rw [← hpop, show stored.length - (taken.length + 1) + 1 = stored.length - taken.length by omega]
  exact h

/-- A read takes it from there. -/
theorem Logged.read (h : Logged pos slots taken stored) (hlt : taken.length < stored.length) :
    Logged pos slots (taken ++ [slots (pos taken.length)]) stored := by
  rw [Logged, List.length_append, List.length_singleton, List.append_assoc]
  exact h.next hlt

/-- What waits stands at its position. -/
theorem Logged.getElem? (h : Logged pos slots taken stored) {k : Nat} (hle : taken.length ≤ k)
    (hlt : k < stored.length) : stored[k]? = some (slots (pos k)) := by
  have hk : taken.length + (k - taken.length) = k := by omega
  have hstored : stored[k]? = (taken ++ window pos slots taken.length
      (stored.length - taken.length))[k]? := by rw [h]
  rw [hstored, List.getElem?_append_right hle, window, List.getElem?_map,
    List.getElem?_range (by omega), Option.map_some, hk]

/-- What is read was stored. -/
theorem Logged.mem (h : Logged pos slots taken stored) (hlt : taken.length < stored.length) :
    slots (pos taken.length) ∈ stored := by
  rw [← h.next hlt]
  exact List.mem_append_right _ List.mem_cons_self

end Window

/-- The positions of a ring with `n` slots, in the order they are used. -/
def circular (n : Nat) (hn : 0 < n) (k : Nat) : Fin n := ⟨k % n, Nat.mod_lt k hn⟩

/-- The slot after this one, at the end of the array the first again. -/
def nextSlot {n : Nat} (k : Fin n) : Fin n := ⟨(k + 1) % n, Nat.mod_lt _ k.pos⟩

/-- Going on from slot to slot gives the circular sequence. -/
theorem nextSlot_circular (n : Nat) (hn : 0 < n) (k : Nat) :
    nextSlot (circular n hn k) = circular n hn (k + 1) :=
  Fin.ext (Nat.mod_add_mod k n 1)

/-- Positions less than one turn apart differ. -/
theorem circular_ne (n : Nat) (hn : 0 < n) (i j : Nat) (hij : i < j) (hji : j < i + n) :
    circular n hn i ≠ circular n hn j := by
  intro h
  have hmod : i % n = j % n := congrArg Fin.val h
  have hdvd : n ∣ j - i := Nat.dvd_of_mod_eq_zero (Nat.sub_mod_eq_zero_of_mod_eq hmod.symm)
  exact absurd (Nat.le_of_dvd (by omega) hdvd) (by omega)

/-- Within a turn no position occurs twice. -/
theorem circular_nodup (n : Nat) (hn : 0 < n) (start len : Nat) (hlen : len ≤ n) :
    ((List.range len).map fun k => circular n hn (start + k)).Nodup := by
  refine List.Nodup.map_on ?_ List.nodup_range
  intro i hi j hj heq
  have hi' := List.mem_range.mp hi
  have hj' := List.mem_range.mp hj
  by_contra hne
  rcases Nat.lt_or_gt_of_ne hne with hlt | hlt
  · exact circular_ne n hn (start + i) (start + j) (by omega) (by omega) heq
  · exact circular_ne n hn (start + j) (start + i) (by omega) (by omega) heq.symm

/-- Two positions of a window no longer than a turn coincide only at the end
    of a full turn. -/
theorem circular_eq_iff (n : Nat) (hn : 0 < n) (i len : Nat) (hlen : len ≤ n) :
    circular n hn (i + len) = circular n hn i ↔ len = 0 ∨ len = n := by
  constructor
  · intro h
    by_contra hne
    exact circular_ne n hn i (i + len) (by omega) (by omega) h.symm
  · rintro (rfl | rfl)
    · rfl
    · exact Fin.ext (Nat.add_mod_right i len)

section Fifo

variable {α : Type*}

/-- Adding to a queue of the given capacity: the new contents, and whether
    the entry was accepted. -/
def fifoAdd (cap : Nat) (l : List α) (a : α) : List α × Bool :=
  if l.length < cap then (l ++ [a], true) else (l, false)

/-- Removing the oldest entry of a queue, or nothing when it is empty. -/
def fifoPop : List α → List α × Option α
  | [] => ([], none)
  | a :: l => (l, some a)

end Fifo

end OsLabs
