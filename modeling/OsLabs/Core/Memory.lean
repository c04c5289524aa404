import Mathlib.Algebra.Group.Nat.Defs
import Mathlib.Data.List.TakeWhile

/-!
# Objects in Memory

What a C program sees of its memory: arrays of `char`, the strings they hold,
and integers as sequences of bytes.

A string argument is a list of bytes and what counts of it is the part before
the first zero byte, `cstr`. An array of `char` is a list of bytes of a fixed
length, and the library functions that write into one keep that length. A
write past the end of an array has no defined result in C and none here: the
array is cut at its length, so a caller that wants the C meaning has to stay
inside it.

`cstr_strncpy` is the one fact the bounded copies of a program come down to.
A copy of at most `k` bytes into an array whose byte number `k` is zero holds
the first `k` bytes of the string, whatever the array held before.

## Main definitions

* `bytes`: The bytes of a string literal.
* `cstr`: The string a pointer to `char` denotes.
* `strlen`, `strcmp_eq`: Its length, and equality of two strings.
* `strrchr`: The last place of a character.
* `CharArray`: An array of `char` of a given size.
* `CharArray.zero`, `CharArray.set`: An array of zeros, and one assignment.
* `CharArray.get`: The value of an element.
* `CharArray.strcpy`: The copy of a whole string.
* `CharArray.strncpy`, `CharArray.strncat`: The bounded copy and append.
* `CharArray.Full`: The array holds a string that fills it.
* `CharArray.ofList`: An array filled from a list.
* `CharArray.slice`: A part of an array.
* `leBytes`, `leNat`: Integers as bytes, least significant first.

## Theorems

* `cstr_cstr`: A string denotes itself.
* `cstr_append_zero`: A terminator ends a string.
* `split_of_mem`, `split_unique`: Where the last place of an element divides a list.
* `bytes_slice`: What a slice of an array holds.
* `str_strcpy`: A string that fits is copied whole.
* `get_set`: What an assignment changes.
* `ext_get`: An array is what its elements are.
* `cstr_strncpy`: What a bounded copy leaves in an array.
* `str_strncat`: What a bounded append leaves in an array.
* `Full.strcpy`, `Full.strncpy`: Copies of a string that fills its array.
* `bytes_of_str_lt`: Where the terminator of a string is.
* `strncpy_set`: Writing the terminator before or after the copy.
* `leNat_leBytes`: Reading back the bytes of an integer.
-/

namespace OsLabs

/-- The bytes of a string literal, without its terminator. -/
def bytes (s : String) : List UInt8 := s.toList.map fun c => UInt8.ofNat c.toNat

/-- The string a pointer to `char` denotes: the bytes before the first zero. -/
def cstr (s : List UInt8) : List UInt8 := s.takeWhile (· ≠ 0)

def strlen (s : List UInt8) : Nat := (cstr s).length

/-- `strcmp(s, t) == 0`. -/
def strcmp_eq (s t : List UInt8) : Bool := cstr s = cstr t

/-- The last place of an element in a list. -/
def lastIndex {α : Type*} [DecidableEq α] (x : α) : List α → Option Nat
  | [] => none
  | y :: l => match lastIndex x l with
    | some k => some (k + 1)
    | none => if y = x then some 0 else none

/-- `strrchr(s, c)` as an index, for a `c` that is not the terminator. -/
def strrchr (s : List UInt8) (c : UInt8) : Option Nat := lastIndex c (cstr s)

section Last

variable {α : Type*} [DecidableEq α] {x : α} {l : List α}

theorem lastIndex_eq_none_iff : lastIndex x l = none ↔ x ∉ l := by
  induction l with
  | nil => exact iff_of_true rfl List.not_mem_nil
  | cons y l ih =>
      rw [lastIndex, List.mem_cons, not_or]
      cases hlast : lastIndex x l with
      | some k =>
          rw [hlast] at ih
          exact iff_of_false (Option.some_ne_none _) fun h => nomatch ih.mpr h.2
      | none =>
          have hrest := ih.mp hlast
          by_cases hy : y = x
          · simp [hy]
          · simp [hy, Ne.symm hy, hrest]

/-- The element divides the list at its last place. -/
theorem lastIndex_of_split {u v : List α} (hv : x ∉ v) :
    lastIndex x (u ++ x :: v) = some u.length := by
  induction u with
  | nil =>
      rw [List.nil_append, lastIndex, lastIndex_eq_none_iff.mpr hv]
      exact if_pos rfl
  | cons y u ih =>
      rw [List.cons_append, lastIndex, ih]
      rfl

theorem split_of_mem (h : x ∈ l) : ∃ u v, l = u ++ x :: v ∧ x ∉ v := by
  induction l with
  | nil => exact absurd h List.not_mem_nil
  | cons y l ih =>
      by_cases hl : x ∈ l
      · rcases ih hl with ⟨u, v, rfl, hv⟩
        exact ⟨y :: u, v, rfl, hv⟩
      · rcases List.mem_cons.mp h with rfl | hmem
        · exact ⟨[], l, rfl, hl⟩
        · exact absurd hmem hl

/-- There is one such place. -/
theorem split_unique {u v u' v' : List α} (heq : u ++ x :: v = u' ++ x :: v') (hv : x ∉ v)
    (hv' : x ∉ v') : u = u' ∧ v = v' := by
  have hlast := lastIndex_of_split (u := u) hv
  rw [heq, lastIndex_of_split hv', Option.some.injEq] at hlast
  rcases List.append_inj heq hlast.symm with ⟨hu, hrest⟩
  exact ⟨hu, (List.cons.inj hrest).2⟩

end Last

theorem cstr_no_zero (s : List UInt8) : ∀ b ∈ cstr s, b ≠ 0 := by
  intro b hb
  rw [cstr] at hb
  have hp := List.mem_takeWhile_imp hb
  exact of_decide_eq_true hp

theorem cstr_of_no_zero {s : List UInt8} (h : ∀ b ∈ s, b ≠ 0) : cstr s = s :=
  List.takeWhile_eq_self_iff.mpr fun b hb => decide_eq_true (h b hb)

@[simp] theorem cstr_cstr (s : List UInt8) : cstr (cstr s) = cstr s :=
  cstr_of_no_zero (cstr_no_zero s)

/-- A terminator ends a string, whatever follows it. -/
theorem cstr_append_zero {s : List UInt8} (h : ∀ b ∈ s, b ≠ 0) (rest : List UInt8) :
    cstr (s ++ 0 :: rest) = s := by
  induction s with
  | nil => rfl
  | cons b s ih =>
      have hb : decide (b ≠ 0) = true := decide_eq_true (h b List.mem_cons_self)
      rw [List.cons_append, cstr, List.takeWhile_cons, if_pos hb]
      congr 1
      exact ih fun c hc => h c (List.mem_cons_of_mem b hc)

/-- An array of `char` of size `n`. -/
structure CharArray (n : Nat) where
  bytes : List UInt8
  length_eq : bytes.length = n
  deriving DecidableEq

namespace CharArray

variable {n : Nat}

@[ext] theorem ext {a b : CharArray n} (h : a.bytes = b.bytes) : a = b := by
  cases a
  cases b
  cases h
  rfl

/-- The string stored in the array. -/
def str (a : CharArray n) : List UInt8 := cstr a.bytes

theorem str_length_le (a : CharArray n) : a.str.length ≤ n := by
  have hle : a.str.length ≤ a.bytes.length := (List.takeWhile_prefix _).length_le
  rw [a.length_eq] at hle
  exact hle

/-- An array of zeros, as `= {0}` and `memset` leave it. -/
def zero (n : Nat) : CharArray n := ⟨List.replicate n 0, List.length_replicate⟩

/-- The array filled from a list of bytes. -/
def ofList (n : Nat) (l : List UInt8) : CharArray n :=
  ⟨(l ++ List.replicate n 0).take n, by
    rw [List.length_take, List.length_append, List.length_replicate]
    omega⟩

/-- One assignment to an element. -/
def set (a : CharArray n) (i : Nat) (b : UInt8) : CharArray n :=
  ⟨a.bytes.set i b, by rw [List.length_set, a.length_eq]⟩

/-- The value of an element. Outside the array there is none, and 0 stands in
    for it. -/
def get (a : CharArray n) (i : Nat) : UInt8 := a.bytes.getD i 0

theorem get_set (a : CharArray n) (i k : Nat) (b : UInt8) (hk : k < n) :
    (a.set i b).get k = if i = k then b else a.get k := by
  have hlt : k < a.bytes.length := by rw [a.length_eq]; exact hk
  rw [get, get, set, List.getD_eq_getElem?_getD, List.getD_eq_getElem?_getD, List.getElem?_set]
  by_cases hik : i = k
  · rw [if_pos hik, if_pos hik, hik, if_pos hlt]
    rfl
  · rw [if_neg hik, if_neg hik]

/-- Two arrays with the same elements are the same. -/
theorem ext_get {a b : CharArray n} (h : ∀ k, k < n → a.get k = b.get k) : a = b := by
  refine ext (List.ext_getElem (by rw [a.length_eq, b.length_eq]) fun k ha hb => ?_)
  have hk := h k (by rw [← a.length_eq]; exact ha)
  rw [get, get, List.getD_eq_getElem?_getD, List.getD_eq_getElem?_getD,
    List.getElem?_eq_getElem ha, List.getElem?_eq_getElem hb] at hk
  exact hk

/-- `strcpy(a, src)`: the string and its terminator, and the array's own bytes
    after them. -/
def strcpy (a : CharArray n) (src : List UInt8) : CharArray n :=
  ⟨(cstr src ++ 0 :: a.bytes.drop (strlen src + 1)).take n, by
    rw [List.length_take, List.length_append, List.length_cons, List.length_drop, a.length_eq,
      strlen]
    omega⟩

/-- `strncpy(a, src, k)`: the string cut to `k` bytes, zeros up to `k`, and
    the array's own bytes from there on. -/
def strncpy (a : CharArray n) (src : List UInt8) (k : Nat) : CharArray n :=
  ⟨((cstr src).take k ++ List.replicate (k - (cstr src).length) 0 ++ a.bytes.drop k).take n, by
    rw [List.length_take, List.length_append, List.length_append, List.length_take,
      List.length_replicate, List.length_drop, a.length_eq]
    omega⟩

/-- `strncat(a, src, k)`: at most `k` bytes of the string and a terminator,
    written where the array's string ends. -/
def strncat (a : CharArray n) (src : List UInt8) (k : Nat) : CharArray n :=
  ⟨(a.str ++ (cstr src).take k ++ 0 :: a.bytes.drop (a.str.length + min k (strlen src) + 1)).take n,
    by
      have hle : a.str.length ≤ n := a.str_length_le
      rw [List.length_take, List.length_append, List.length_append, List.length_take,
        List.length_cons, List.length_drop, a.length_eq, ← strlen]
      omega⟩

/-- The `len` elements from index `off` on. -/
def slice (a : CharArray n) (off len : Nat) (h : off + len ≤ n) : CharArray len :=
  ⟨(a.bytes.drop off).take len, by
    rw [List.length_take, List.length_drop, a.length_eq]
    omega⟩

/-- A slice is what stands at its offset. -/
theorem bytes_slice (a : CharArray n) {off len : Nat} (h : off + len ≤ n)
    {part rest : List UInt8} (ha : a.bytes.drop off = part ++ rest) (hlen : part.length = len) :
    (a.slice off len h).bytes = part := by
  change (a.bytes.drop off).take len = part
  rw [ha, List.take_left' hlen]

/-- A string that fits is copied whole. -/
theorem str_strcpy (a : CharArray n) (src : List UInt8) (hfits : strlen src < n) :
    (a.strcpy src).str = cstr src := by
  have htake : (cstr src ++ 0 :: a.bytes.drop (strlen src + 1)).take n
      = cstr src ++ 0 :: (a.bytes.drop (strlen src + 1)).take (n - strlen src - 1) := by
    have hlen : strlen src = (cstr src).length := rfl
    rw [List.take_append, List.take_of_length_le (by omega), ← hlen]
    congr 1
    obtain ⟨k, hk⟩ : ∃ k, n - strlen src = k + 1 := ⟨n - strlen src - 1, by omega⟩
    rw [hk, List.take_succ_cons, Nat.add_sub_cancel]
  change cstr ((cstr src ++ 0 :: a.bytes.drop (strlen src + 1)).take n) = cstr src
  rw [htake, cstr_append_zero (cstr_no_zero src)]

/-- Inside the array nothing is cut off. -/
theorem bytes_strncpy (a : CharArray n) (src : List UInt8) {k : Nat} (hk : k ≤ n) :
    (a.strncpy src k).bytes
      = (cstr src).take k ++ (List.replicate (k - (cstr src).length) 0 ++ a.bytes.drop k) := by
  have hlen : ((cstr src).take k ++ List.replicate (k - (cstr src).length) 0
      ++ a.bytes.drop k).length ≤ n := by
    rw [List.length_append, List.length_append, List.length_take, List.length_replicate,
      List.length_drop, a.length_eq]
    omega
  rw [← List.append_assoc]
  exact List.take_of_length_le hlen

/-- A bounded copy below a zero byte holds the first bytes of the string. -/
theorem cstr_strncpy (a : CharArray n) (src : List UInt8) {k : Nat} (hk : k < n)
    (hzero : a.bytes[k]? = some 0) : (a.strncpy src k).str = (cstr src).take k := by
  have hno : ∀ b ∈ (cstr src).take k, b ≠ 0 :=
    fun b hb => cstr_no_zero src b (List.mem_of_mem_take hb)
  -- What follows the copied bytes starts with a zero: the padding, or the
  -- array's own byte when there is none.
  have htail : ∃ rest, List.replicate (k - (cstr src).length) 0 ++ a.bytes.drop k = 0 :: rest := by
    cases hpad : k - (cstr src).length with
    | zero =>
        rw [List.replicate_zero, List.nil_append]
        have hlt : k < a.bytes.length := by rw [a.length_eq]; exact hk
        rw [List.getElem?_eq_getElem hlt, Option.some.injEq] at hzero
        exact ⟨a.bytes.drop (k + 1), by rw [List.drop_eq_getElem_cons hlt, hzero]⟩
    | succ m => exact ⟨List.replicate m 0 ++ a.bytes.drop k, rfl⟩
  rcases htail with ⟨rest, hrest⟩
  rw [str, bytes_strncpy a src (Nat.le_of_lt hk), hrest]
  exact cstr_append_zero hno rest

/-- A bounded append that stays inside the array adds the first bytes of the
    string. -/
theorem str_strncat (a : CharArray n) (src : List UInt8) {k : Nat} (hk : a.str.length + k < n) :
    (a.strncat src k).str = a.str ++ (cstr src).take k := by
  have hno : ∀ b ∈ a.str ++ (cstr src).take k, b ≠ 0 := by
    intro b hb
    rcases List.mem_append.mp hb with hb | hb
    · exact cstr_no_zero a.bytes b hb
    · exact cstr_no_zero src b (List.mem_of_mem_take hb)
  -- Neither the bytes added nor the terminator are cut off.
  have hbytes : (a.strncat src k).bytes = a.str ++ (cstr src).take k ++
      0 :: a.bytes.drop (a.str.length + min k (strlen src) + 1) := by
    refine List.take_of_length_le ?_
    rw [List.length_append, List.length_append, List.length_take, List.length_cons,
      List.length_drop, a.length_eq, ← strlen]
    omega
  rw [str, hbytes]
  exact cstr_append_zero hno _

/-- A terminator written after the copy might as well have been there before. -/
theorem strncpy_set (a : CharArray n) (src : List UInt8) {k : Nat} (hk : k < n) (b : UInt8) :
    (a.strncpy src k).set k b = (a.set k b).strncpy src k := by
  have hlen : ((cstr src).take k ++ List.replicate (k - (cstr src).length) (0 : UInt8)).length
      = k := by
    rw [List.length_append, List.length_take, List.length_replicate]
    omega
  refine ext ?_
  rw [bytes_strncpy _ _ (Nat.le_of_lt hk)]
  change (a.strncpy src k).bytes.set k b = _
  rw [bytes_strncpy a src (Nat.le_of_lt hk), ← List.append_assoc, ← List.append_assoc,
    List.set_append_right _ _ (Nat.le_of_eq hlen), hlen, Nat.sub_self]
  congr 1
  change _ = (a.bytes.set k b).drop k
  rw [List.drop_set, if_neg (Nat.lt_irrefl k), Nat.sub_self]

/-- The array holds a string whose terminator is its last byte. -/
def Full (a : CharArray n) : Prop := ∃ text, (∀ b ∈ text, b ≠ 0) ∧ a.bytes = text ++ [0]

/-- Copying a string that fills an array of the same size overwrites all of
    it. -/
theorem Full.strcpy {d : CharArray n} (h : d.Full) (a : CharArray n) : a.strcpy d.bytes = d := by
  rcases h with ⟨text, hno, hbytes⟩
  have hlen : text.length + 1 = n := by
    rw [← d.length_eq, hbytes, List.length_append, List.length_singleton]
  -- Nothing of the array is left behind the terminator.
  refine ext ?_
  change (cstr d.bytes ++ 0 :: a.bytes.drop (strlen d.bytes + 1)).take n = d.bytes
  rw [strlen, hbytes, cstr_append_zero hno, hlen,
    List.drop_eq_nil_of_le (Nat.le_of_eq a.length_eq)]
  exact List.take_of_length_le (by rw [List.length_append, List.length_singleton]; omega)

/-- So does a copy bounded by the size. -/
theorem Full.strncpy {d : CharArray n} (h : d.Full) (a : CharArray n) :
    a.strncpy d.bytes n = d := by
  rcases h with ⟨text, hno, hbytes⟩
  have hlen : text.length + 1 = n := by
    rw [← d.length_eq, hbytes, List.length_append, List.length_singleton]
  -- The padding is one byte, the terminator.
  have hpad : n - text.length = 1 := by omega
  refine ext ?_
  rw [bytes_strncpy a _ (Nat.le_refl n), hbytes, cstr_append_zero hno, hpad,
    List.drop_eq_nil_of_le (Nat.le_of_eq a.length_eq), List.take_of_length_le (by omega)]
  rfl

/-- Filling an array with its own bytes. -/
theorem ofList_bytes (a : CharArray n) : ofList n a.bytes = a :=
  ext (List.take_left' a.length_eq)

/-- A string that is shorter than its array has a terminator there. -/
theorem bytes_of_str_lt {a : CharArray n} (h : a.str.length < n) :
    ∃ rest, a.bytes = a.str ++ 0 :: rest := by
  have hsplit : a.str ++ a.bytes.dropWhile (· ≠ 0) = a.bytes := List.takeWhile_append_dropWhile
  cases hrest : a.bytes.dropWhile (· ≠ 0) with
  | nil =>
      rw [hrest, List.append_nil] at hsplit
      rw [hsplit, a.length_eq] at h
      exact absurd h (Nat.lt_irrefl n)
  | cons b rest =>
      -- The string ends at a byte that is not copied, and only zero is not.
      have hb := List.head?_dropWhile_not (· ≠ (0 : UInt8)) a.bytes
      rw [hrest] at hb
      have hzero : b = 0 := by simpa using hb
      rw [hrest, hzero] at hsplit
      exact ⟨rest, hsplit.symm⟩

theorem zero_getElem? {k : Nat} (hk : k < n) : (zero n).bytes[k]? = some 0 := by
  change (List.replicate n (0 : UInt8))[k]? = some 0
  rw [List.getElem?_replicate, if_pos hk]

theorem set_getElem? (a : CharArray n) {k : Nat} (hk : k < n) (b : UInt8) :
    (a.set k b).bytes[k]? = some b := by
  exact List.getElem?_set_self (by rw [a.length_eq]; exact hk)

/-- A string stored with a terminator inside the array is shorter than it. -/
theorem strlen_lt (a : CharArray n) {k : Nat} (hzero : a.bytes[k]? = some 0) :
    a.str.length ≤ k := by
  by_contra hlt
  -- The string would run over the zero.
  have hlt' : k < a.str.length := by omega
  have hpre : a.str <+: a.bytes := List.takeWhile_prefix _
  have hk : k < a.bytes.length := Nat.lt_of_lt_of_le hlt' hpre.length_le
  rw [List.getElem?_eq_getElem hk, Option.some.injEq, ← hpre.getElem hlt'] at hzero
  exact cstr_no_zero a.bytes _ (List.getElem_mem hlt') hzero

end CharArray

/-- Reading on past a part of known length. -/
theorem drop_next {l part rest : List UInt8} {off len : Nat} (h : l.drop off = part ++ rest)
    (hlen : part.length = len) : l.drop (off + len) = rest := by
  rw [← List.drop_drop, h, List.drop_left' hlen]

/-- The `k` least significant bytes of a number, least significant first. -/
def leBytes : Nat → Nat → List UInt8
  | 0, _ => []
  | k + 1, v => UInt8.ofNat (v % 256) :: leBytes k (v / 256)

/-- The number whose bytes, least significant first, are given. -/
def leNat : List UInt8 → Nat
  | [] => 0
  | b :: bs => b.toNat + 256 * leNat bs

theorem leBytes_length (k v : Nat) : (leBytes k v).length = k := by
  induction k generalizing v with
  | zero => rfl
  | succ k ih => rw [leBytes, List.length_cons, ih]

/-- Reading the bytes back gives the number again, up to what they can hold. -/
theorem leNat_leBytes (k v : Nat) : leNat (leBytes k v) = v % 256 ^ k := by
  induction k generalizing v with
  | zero => rw [leBytes, leNat, Nat.pow_zero, Nat.mod_one]
  | succ k ih =>
      have hbyte : (UInt8.ofNat (v % 256)).toNat = v % 256 := by
        rw [UInt8.toNat_ofNat', Nat.mod_eq_of_lt (Nat.mod_lt v (by decide))]
      rw [leBytes, leNat, ih, hbyte, Nat.pow_succ, Nat.mul_comm (256 ^ k), Nat.mod_mul]

end OsLabs
