import OsLabs.Chat.Common
import OsLabs.Core.Writes

/-!
# Bounded Strings

How `common.c` builds a text in an array: a safe copy and then safe appends, in
lab10 as in lab11, of which the list of the clients is one.

Whatever the texts are, the array holds as much of all of them together as fits.
Once it is full nothing is added any more, also if a later text would fit. And
nothing is written behind the size that is given, which is said of each byte
that is written.

## Main definitions

* `safe_strcpyWrites`, `safe_strcatWrites`: The assignments of the two functions.
* `build`: A copy and appends.
* `buildWrites`: The assignments of all of them.

## Theorems

* `safe_strcpy_eq_write`, `safe_strcat_eq_write`: The two functions do nothing else.
* `build_str`: The text in the array.
* `index_lt_of_mem_buildWrites`: Where the assignments are.
* `build_spec`: What is in the array and what has been written.
-/

namespace OsLabs

namespace Chat

variable {n : Nat} {dest : CharArray n} {dest_size : Nat}

/-- The assignments of `safe_strcpy`. -/
def safe_strcpyWrites (src : List UInt8) (dest_size : Nat) : List Write :=
  if dest_size = 0 then []
  else strncpyWrites src (dest_size - 1) ++ [⟨dest_size - 1, 0⟩]

/-- The assignments of `safe_strcat`. -/
def safe_strcatWrites (dest : CharArray n) (src : List UInt8) (dest_size : Nat) : List Write :=
  if dest_size = 0 then []
  else if strlen dest.bytes ≥ dest_size - 1 then []
  else strncatWrites (strlen dest.bytes) src (dest_size - strlen dest.bytes - 1)

/-- Texts appended one after the other. -/
def appendAll (dest : CharArray n) (srcs : List (List UInt8)) (dest_size : Nat) : CharArray n :=
  srcs.foldl (fun dest src => safe_strcat dest src dest_size) dest

/-- A text is copied and others are appended. -/
def build (dest : CharArray n) (first : List UInt8) (others : List (List UInt8))
    (dest_size : Nat) : CharArray n :=
  appendAll (safe_strcpy dest first dest_size) others dest_size

/-- The assignments of several appends. -/
def appendWrites (dest : CharArray n) : List (List UInt8) → Nat → List Write
  | [], _ => []
  | src :: srcs, dest_size => safe_strcatWrites dest src dest_size ++
      appendWrites (safe_strcat dest src dest_size) srcs dest_size

/-- The assignments of a copy and several appends. -/
def buildWrites (dest : CharArray n) (first : List UInt8) (others : List (List UInt8))
    (dest_size : Nat) : List Write :=
  safe_strcpyWrites first dest_size ++
    appendWrites (safe_strcpy dest first dest_size) others dest_size

section Writes

theorem safe_strcpy_eq_write (dest : CharArray n) (src : List UInt8) (dest_size : Nat) :
    safe_strcpy dest src dest_size = dest.write (safe_strcpyWrites src dest_size) := by
  unfold safe_strcpy safe_strcpyWrites
  split_ifs
  · rfl
  · rw [CharArray.write_append, ← CharArray.strncpy_eq_write]
    rfl

theorem safe_strcat_eq_write (dest : CharArray n) (src : List UInt8) (dest_size : Nat) :
    safe_strcat dest src dest_size = dest.write (safe_strcatWrites dest src dest_size) := by
  unfold safe_strcat safe_strcatWrites
  split_ifs
  · rfl
  · rfl
  · exact CharArray.strncat_eq_write dest src _

theorem appendAll_eq_write (dest : CharArray n) (srcs : List (List UInt8)) (dest_size : Nat) :
    appendAll dest srcs dest_size = dest.write (appendWrites dest srcs dest_size) := by
  induction srcs generalizing dest with
  | nil => rfl
  | cons src srcs ih =>
      rw [appendWrites, CharArray.write_append, ← safe_strcat_eq_write, ← ih]
      rfl

theorem build_eq_write (dest : CharArray n) (first : List UInt8) (others : List (List UInt8))
    (dest_size : Nat) :
    build dest first others dest_size = dest.write (buildWrites dest first others dest_size) := by
  rw [buildWrites, CharArray.write_append, ← safe_strcpy_eq_write]
  exact appendAll_eq_write _ others dest_size

/-- The copy writes the text, the padding and the terminator. -/
theorem index_lt_of_mem_safe_strcpyWrites {src : List UInt8} {w : Write}
    (h : w ∈ safe_strcpyWrites src dest_size) : w.index < dest_size := by
  unfold safe_strcpyWrites at h
  split_ifs at h with hzero
  · cases h
  · rcases List.mem_append.mp h with h | h
    · have hlt := index_lt_of_mem_writesAt h
      rw [List.length_append, List.length_take, List.length_replicate] at hlt
      omega
    · rw [List.mem_singleton.mp h]
      exact Nat.sub_lt (Nat.pos_of_ne_zero hzero) Nat.one_pos

/-- The append writes no more than there is room for, with the terminator. -/
theorem index_lt_of_mem_safe_strcatWrites {src : List UInt8} {w : Write}
    (h : w ∈ safe_strcatWrites dest src dest_size) : w.index < dest_size := by
  unfold safe_strcatWrites at h
  split_ifs at h with hzero hfull
  · cases h
  · cases h
  · have hlt := index_lt_of_mem_writesAt h
    rw [List.length_append, List.length_take, List.length_singleton] at hlt
    omega

theorem index_lt_of_mem_appendWrites {srcs : List (List UInt8)} {w : Write}
    (h : w ∈ appendWrites dest srcs dest_size) : w.index < dest_size := by
  induction srcs generalizing dest with
  | nil => cases h
  | cons src srcs ih =>
      rcases List.mem_append.mp h with h | h
      · exact index_lt_of_mem_safe_strcatWrites h
      · exact ih h

theorem index_lt_of_mem_buildWrites {first : List UInt8} {others : List (List UInt8)} {w : Write}
    (h : w ∈ buildWrites dest first others dest_size) : w.index < dest_size := by
  rcases List.mem_append.mp h with h | h
  · exact index_lt_of_mem_safe_strcpyWrites h
  · exact index_lt_of_mem_appendWrites h

end Writes

section Text

/-- Appends add the texts to the one that is there, as far as there is room. -/
theorem appendAll_str {text : List UInt8} (hpos : 0 < dest_size) (hsize : dest_size ≤ n)
    (h : dest.str = text.take (dest_size - 1)) (srcs : List (List UInt8)) :
    (appendAll dest srcs dest_size).str
      = (text ++ (srcs.map cstr).flatten).take (dest_size - 1) := by
  induction srcs generalizing dest text with
  | nil =>
      rw [List.map_nil, List.flatten_nil, List.append_nil]
      exact h
  | cons src srcs ih =>
      have hrest := ih (str_safe_strcat_take hpos hsize h src)
      rw [List.append_assoc] at hrest
      exact hrest

theorem build_str (dest : CharArray n) (first : List UInt8) (others : List (List UInt8))
    (hpos : 0 < dest_size) (hsize : dest_size ≤ n) :
    (build dest first others dest_size).str
      = (cstr first ++ (others.map cstr).flatten).take (dest_size - 1) :=
  appendAll_str hpos hsize (str_safe_strcpy dest first hpos hsize) others

/-- The array holds the first bytes of all texts together and a terminator. All
    that has been done to it are assignments below the size, so that it is as
    before from there on. -/
theorem build_spec (dest : CharArray n) (first : List UInt8) (others : List (List UInt8))
    (hpos : 1 ≤ dest_size) (hsize : dest_size ≤ n) :
    (∃ rest, (build dest first others dest_size).bytes
      = (cstr first ++ (others.map cstr).flatten).take (dest_size - 1) ++ 0 :: rest) ∧
    build dest first others dest_size = dest.write (buildWrites dest first others dest_size) ∧
    (∀ w ∈ buildWrites dest first others dest_size, w.index < dest_size) ∧
    (build dest first others dest_size).bytes.drop dest_size = dest.bytes.drop dest_size := by
  have hstr := build_str dest first others hpos hsize
  have hlen : (build dest first others dest_size).str.length < n := by
    rw [hstr, List.length_take]
    omega
  refine ⟨?_, build_eq_write dest first others dest_size,
    fun w hw => index_lt_of_mem_buildWrites hw, ?_⟩
  · rw [← hstr]
    exact CharArray.bytes_of_str_lt hlen
  · rw [build_eq_write]
    exact CharArray.drop_write fun w hw => index_lt_of_mem_buildWrites hw

/-- Two texts that fit, one that is cut, and one that is left out. -/
theorem build_spec_cut :
    ∃ rest,
      (build (CharArray.zero 12) (bytes "ann") [bytes ", ", bytes "roberta", bytes "x"] 10).bytes
        = bytes "ann, robe" ++ 0 :: rest := by
  have hspec := (build_spec (CharArray.zero 12) (bytes "ann")
    [bytes ", ", bytes "roberta", bytes "x"] (by decide : 1 ≤ 10) (by decide)).1
  exact hspec

end Text

end Chat

end OsLabs
