import OsLabs.Core.Memory

/-!
# Byte by Byte

The bounded copy and the bounded append as the assignments they consist of. An
array that is cut at its length does not show whether a function has written
behind it; the assignments do, and `strncpy_eq_write` and `strncat_eq_write` say
that they are what the function does.

## Main definitions

* `Write`: One assignment.
* `CharArray.write`: Assignments one after the other.
* `writesAt`: Bytes that are written to consecutive elements.
* `strncpyWrites`, `strncatWrites`: The assignments of the two functions.

## Theorems

* `bytes_writesAt`: What consecutive bytes leave in an array.
* `strncpy_eq_write`, `strncat_eq_write`: The functions do nothing else.
* `drop_write`: Behind the assignments the array is as it was.
-/

namespace OsLabs

/-- A byte is assigned to an element. -/
structure Write where
  index : Nat
  byte : UInt8
  deriving DecidableEq

/-- Bytes are written to consecutive elements. -/
def writesAt : Nat → List UInt8 → List Write
  | _, [] => []
  | i, b :: bs => ⟨i, b⟩ :: writesAt (i + 1) bs

/-- `strncpy(a, src, k)`: the bytes of the string and the padding. -/
def strncpyWrites (src : List UInt8) (k : Nat) : List Write :=
  writesAt 0 ((cstr src).take k ++ List.replicate (k - (cstr src).length) 0)

/-- `strncat(a, src, k)` behind a string of length `len`: the bytes of the string
    and the terminator. -/
def strncatWrites (len : Nat) (src : List UInt8) (k : Nat) : List Write :=
  writesAt len ((cstr src).take k ++ [0])

theorem index_lt_of_mem_writesAt {i : Nat} {bs : List UInt8} {w : Write} (h : w ∈ writesAt i bs) :
    w.index < i + bs.length := by
  induction bs generalizing i with
  | nil => cases h
  | cons b bs ih =>
      rw [List.length_cons]
      rcases List.mem_cons.mp h with rfl | hrest
      · exact Nat.lt_add_of_pos_right (Nat.succ_pos _)
      · have hlt := ih hrest
        omega

namespace CharArray

variable {n : Nat}

/-- Assignments one after the other. -/
def write (a : CharArray n) (ws : List Write) : CharArray n :=
  ws.foldl (fun a w => a.set w.index w.byte) a

theorem write_append (a : CharArray n) (ws ws' : List Write) :
    a.write (ws ++ ws') = (a.write ws).write ws' := List.foldl_append

/-- Consecutive bytes replace a part of the array. -/
theorem bytes_writesAt (a : CharArray n) (i : Nat) (bs : List UInt8) :
    (a.write (writesAt i bs)).bytes
      = (a.bytes.take i ++ bs ++ a.bytes.drop (i + bs.length)).take n := by
  induction bs generalizing a i with
  | nil =>
      rw [List.append_nil, List.length_nil, Nat.add_zero, List.take_append_drop]
      exact (List.take_of_length_le (Nat.le_of_eq a.length_eq)).symm
  | cons b bs ih =>
      have hlen := a.length_eq
      change ((a.set i b).write (writesAt (i + 1) bs)).bytes = _
      rw [ih]
      change ((a.bytes.set i b).take (i + 1) ++ bs
        ++ (a.bytes.set i b).drop (i + 1 + bs.length)).take n = _
      rw [List.drop_set_of_lt (by omega), List.length_cons, Nat.add_assoc i 1, Nat.add_comm 1]
      by_cases hi : i < n
      · congr 2
        rw [List.take_set, List.take_succ_eq_append_getElem (by omega), List.set_append_right _ _
          (by rw [List.length_take]; omega), List.length_take, Nat.min_eq_left (by omega),
          Nat.sub_self, List.set_cons_zero, List.append_assoc]
        rfl
      · -- Outside of the array nothing is assigned.
        have hall : a.bytes.take i = a.bytes := List.take_of_length_le (by omega)
        have hall' : a.bytes.take (i + 1) = a.bytes := List.take_of_length_le (by omega)
        rw [List.set_eq_of_length_le (by omega), hall, hall', List.append_assoc,
          List.append_assoc, List.take_left' hlen, List.take_left' hlen]

/-- The bounded copy is the assignments it consists of. -/
theorem strncpy_eq_write (a : CharArray n) (src : List UInt8) (k : Nat) :
    a.strncpy src k = a.write (strncpyWrites src k) := by
  have hlen : ((cstr src).take k ++ List.replicate (k - (cstr src).length) (0 : UInt8)).length
      = k := by
    rw [List.length_append, List.length_take, List.length_replicate]
    omega
  refine ext ?_
  rw [strncpyWrites, bytes_writesAt, hlen, List.take_zero, List.nil_append, Nat.zero_add]
  rfl

/-- So is the bounded append. -/
theorem strncat_eq_write (a : CharArray n) (src : List UInt8) (k : Nat) :
    a.strncat src k = a.write (strncatWrites a.str.length src k) := by
  have hpre : a.str <+: a.bytes := List.takeWhile_prefix _
  have hlen : ((cstr src).take k ++ [(0 : UInt8)]).length = min k (strlen src) + 1 := by
    rw [List.length_append, List.length_take, List.length_singleton]
    rfl
  refine ext ?_
  rw [strncatWrites, bytes_writesAt, hlen, ← List.prefix_iff_eq_take.mp hpre]
  change (a.str ++ (cstr src).take k
    ++ 0 :: a.bytes.drop (a.str.length + min k (strlen src) + 1)).take n = _
  rw [List.append_assoc, List.append_assoc, List.append_assoc, Nat.add_assoc]
  rfl

/-- Behind the assignments the array is as it was. -/
theorem drop_write {a : CharArray n} {ws : List Write} {k : Nat} (h : ∀ w ∈ ws, w.index < k) :
    (a.write ws).bytes.drop k = a.bytes.drop k := by
  induction ws generalizing a with
  | nil => rfl
  | cons w ws ih =>
      rw [List.forall_mem_cons] at h
      have hrest := ih h.2 (a := a.set w.index w.byte)
      rw [show a.write (w :: ws) = (a.set w.index w.byte).write ws from rfl, hrest]
      exact List.drop_set_of_lt h.1

end CharArray

end OsLabs
