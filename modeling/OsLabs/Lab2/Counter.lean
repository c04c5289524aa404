import OsLabs.Core.FileSystem
import Mathlib.Algebra.GroupWithZero.Nat
import Mathlib.Algebra.BigOperators.Group.Finset.Basic
import Mathlib.Algebra.Order.BigOperators.Group.Finset

/-!
# The Directory Counter

`counter` goes through a directory and all that is below it and adds up the
sizes of the files. It knows a directory by its path, to which it appends the
names, so it is for the resolution of paths to lead it down the tree and for the
tree to be no deeper and no wider than its limits.

The sizes are added up in an `int`. The sizes of a directory in the directory
are added as one number, and an overflow there is undefined; the size of a file
is a `long`, and what does not fit is cut off. `Counts` has all the other
conditions, and under these `count_size_eq_iff` says that an `int` for the total
is all it takes.

## Main definitions

* `count_size`: As in the source, `none` where an addition overflows.
* `Counts`: A tree within the limits.
* `totalSize`: The sizes of its files.

## Theorems

* `below_dir`, `below_file`: The files below an entry, by its entries.
* `foldlM_entries`: The loop over the names in a directory.
* `countFrom_eq`: The sum for any directory of the tree.
* `count_size_eq_iff`: The total is right exactly if it is an `int`.
* `count_size_huge`: A file of 2 GiB.
-/

namespace OsLabs

namespace Lab2

namespace Counter

def RECURSION_LIMIT : Nat := 1000

def PATH_SIZE : Nat := 512

/-- The sum of two `int`s. -/
def addInt (a b : Int) : Option Int :=
  if -2 ^ 31 ≤ a + b ∧ a + b < 2 ^ 31 then some (a + b) else none

/-- A `long` made an `int`. -/
def narrow (n : Int) : Int := Int.bmod n (2 ^ 32)

section Program

variable (fs : FileSystem) (cwd : Place) (listing : Place → List FileName)

/-- The path of an entry, as much of it as the array holds. -/
def filePath (dirname : List UInt8) (d_name : FileName) : List UInt8 :=
  (dirname ++ slash :: d_name).take (PATH_SIZE - 1)

/-- The loop of `count_size` for the next name; `count` is the recursive call. -/
def countEntry (count : List UInt8 → Option Int) (dirname : List UInt8) (size : Int)
    (d_name : FileName) : Option Int :=
  if d_name = bytes "." ∨ d_name = bytes ".." then some size
  else
    match (fs.lookup cwd (filePath dirname d_name)).bind fs.entry with
    | some .dir => (count (filePath dirname d_name)).bind (addInt size)
    | some (.file _) =>
      match fs.openRead cwd (filePath dirname d_name) with
      | some content => some (narrow (size + content.length))
      | none => some size
    -- `stat` has failed.
    | _ => some size

/-- `count_size` with so many levels left before the limit. -/
def countFrom : Nat → List UInt8 → Option Int
  | 0, _ => some 0
  | levels + 1, dirname =>
    match fs.chdir cwd dirname with
    | none => some 0
    | some dir => (listing dir).foldlM (countEntry fs cwd (countFrom levels) dirname) 0

def count_size (dirname : List UInt8) (depth : Nat) : Option Int :=
  countFrom fs cwd listing (RECURSION_LIMIT - depth) dirname

end Program

/-- The path to what has these names, the innermost first, below a directory. -/
def pathOf (dirname : List UInt8) : Place → List UInt8
  | [] => dirname
  | c :: names => pathOf dirname names ++ slash :: c

/-- A tree of directories and files. All of it can be read and is within the
    limits; `files` are its files, each by the names on the way to it. -/
structure Counts (fs : FileSystem) (cwd : Place) (listing : Place → List FileName)
    (dirname : List UInt8) (root : Place) (files : Finset Place) : Prop where
  chdir : fs.chdir cwd dirname = some root
  files : ∀ names, names ∈ files ↔ ∃ f, fs.entry (names ++ root) = some (.file f)
  links : ∀ names target, fs.entry (names ++ root) ≠ some (.link target)
  readable : ∀ names f, fs.entry (names ++ root) = some (.file f) → f.readable = true
  listing : ∀ names, fs.entry (names ++ root) = some .dir →
    fs.Lists (names ++ root) (listing (names ++ root))
  depth : ∀ names, fs.entry (names ++ root) = some .dir → names.length + 1 < RECURSION_LIMIT
  paths : ∀ names, fs.entry (names ++ root) ≠ none →
    (pathOf dirname names).length < PATH_SIZE

def size (fs : FileSystem) (root names : Place) : Nat := (fs.contentAt (names ++ root)).length

/-- The bytes of all the files below a directory of the tree. -/
def below (fs : FileSystem) (root : Place) (files : Finset Place) (names : Place) : Nat :=
  ∑ p ∈ files.filter (names <:+ ·), size fs root p

/-- The bytes of all the files. -/
def totalSize (fs : FileSystem) (root : Place) (files : Finset Place) : Nat :=
  ∑ p ∈ files, size fs root p

section Sums

variable {fs : FileSystem} {cwd root : Place} {listing : Place → List FileName}
variable {dirname : List UInt8} {files : Finset Place} {names : Place} {c : FileName}

theorem below_nil : below fs root files [] = totalSize fs root files := by
  rw [below, totalSize, Finset.filter_true_of_mem fun p _ => List.nil_suffix]

theorem below_le : below fs root files names ≤ totalSize fs root files :=
  Finset.sum_le_sum_of_subset (Finset.filter_subset _ _)

/-- Below a name there are only files in a directory of that name. -/
theorem dir_of_suffix (h : Counts fs cwd listing dirname root files) {p : Place}
    (hp : p ∈ files) (hsuffix : names <:+ p) (hne : names ≠ p) :
    fs.entry (names ++ root) = some .dir := by
  rcases hsuffix with ⟨l, rfl⟩
  rcases (h.files _).mp hp with ⟨f, hf⟩
  have hl : l ≠ [] := fun hnil => hne (by rw [hnil, List.nil_append])
  refine FileSystem.entry_of_append hl ?_
  rw [← List.append_assoc, hf]
  exact Option.some_ne_none _

/-- Where there is a file there is nothing else. -/
theorem below_file (h : Counts fs cwd listing dirname root files) {f : File}
    (hf : fs.entry (names ++ root) = some (.file f)) :
    below fs root files names = f.content.length := by
  have hsingle : files.filter (names <:+ ·) = {names} := by
    ext p
    rw [Finset.mem_filter, Finset.mem_singleton]
    constructor
    · rintro ⟨hp, hsuffix⟩
      by_contra hne
      have hdir := dir_of_suffix h hp hsuffix (Ne.symm hne)
      rw [hf] at hdir
      cases hdir
    · rintro rfl
      exact ⟨(h.files _).mpr ⟨f, hf⟩, List.suffix_rfl⟩
  rw [below, hsingle, Finset.sum_singleton, size, FileSystem.contentAt, hf]

/-- Where there is nothing there are no files. -/
theorem below_none (h : Counts fs cwd listing dirname root files)
    (hnone : fs.entry (names ++ root) = none) : below fs root files names = 0 := by
  refine Finset.sum_eq_zero fun p hp => ?_
  rcases Finset.mem_filter.mp hp with ⟨hp, hsuffix⟩
  by_cases hne : names = p
  · rcases (h.files p).mp hp with ⟨f, hf⟩
    rw [← hne, hnone] at hf
    cases hf
  · have hdir := dir_of_suffix h hp hsuffix hne
    rw [hnone] at hdir
    cases hdir

/-- The files below a directory are below the names in it. -/
theorem below_dir (h : Counts fs cwd listing dirname root files)
    (hdir : fs.entry (names ++ root) = some .dir) :
    below fs root files names =
      ((listing (names ++ root)).map fun c => below fs root files (c :: names)).sum := by
  rcases h.listing names hdir with ⟨hnodup, hlists⟩
  have hsplit : files.filter (names <:+ ·) =
      (listing (names ++ root)).toFinset.biUnion fun c => files.filter (c :: names <:+ ·) := by
    ext p
    simp only [Finset.mem_filter, Finset.mem_biUnion, List.mem_toFinset]
    constructor
    · rintro ⟨hp, l, rfl⟩
      rcases List.eq_nil_or_concat l with rfl | ⟨l, c, rfl⟩
      · -- The directory itself is no file.
        rcases (h.files _).mp hp with ⟨f, hf⟩
        rw [List.nil_append, hdir] at hf
        cases hf
      · have hsuffix : c :: names <:+ l.concat c ++ names :=
          ⟨l, by rw [List.concat_eq_append, List.append_assoc, List.singleton_append]⟩
        refine ⟨c, (hlists c).mpr (Or.inr (Or.inr ?_)), hp, hsuffix⟩
        by_cases hne : c :: names = l.concat c ++ names
        · rcases (h.files _).mp hp with ⟨f, hf⟩
          rw [← hne, List.cons_append] at hf
          rw [hf]
          exact Option.some_ne_none _
        · have hchild := dir_of_suffix h hp hsuffix hne
          rw [List.cons_append] at hchild
          rw [hchild]
          exact Option.some_ne_none _
    · rintro ⟨c, _, hp, hsuffix⟩
      exact ⟨hp, (List.suffix_cons c names).trans hsuffix⟩
  have hdisjoint : Set.PairwiseDisjoint (listing (names ++ root)).toFinset
      fun c => files.filter (c :: names <:+ ·) := by
    intro c _ c' _ hne
    refine Finset.disjoint_left.mpr fun p hp hp' => hne ?_
    have hsuffix := List.suffix_of_suffix_length_le (Finset.mem_filter.mp hp).2
      (Finset.mem_filter.mp hp').2 (Nat.le_of_eq rfl)
    exact (List.cons.inj (hsuffix.eq_of_length rfl)).1
  rw [below, hsplit, Finset.sum_biUnion hdisjoint, ← List.sum_toFinset _ hnodup]
  rfl

end Sums

section Integers

theorem addInt_eq {a b : Int} (ha : 0 ≤ a) (hb : 0 ≤ b) (h : a + b < 2 ^ 31) :
    addInt a b = some (a + b) := by
  rw [addInt, if_pos ⟨by omega, h⟩]

theorem narrow_eq {n : Int} (hn : 0 ≤ n) (h : n < 2 ^ 31) : narrow n = n :=
  Int.bmod_eq_of_le (by omega) (by omega)

/-- Whatever is counted is an `int`. -/
theorem narrow_lt (n : Int) : narrow n < 2 ^ 31 := Int.bmod_lt (by decide)

end Integers

section Loop

variable {fs : FileSystem} {cwd root : Place} {listing : Place → List FileName}
variable {dirname : List UInt8} {files : Finset Place} {names : Place} {c : FileName}

/-- The path of a name in a directory of the tree fits, and leads to it. -/
theorem lookup_filePath (h : Counts fs cwd listing dirname root files)
    (hcwd : fs.chdir cwd (pathOf dirname names) = some (names ++ root))
    (hentry : fs.entry (c :: names ++ root) ≠ none) :
    filePath (pathOf dirname names) c = pathOf dirname (c :: names) ∧
      fs.lookup cwd (pathOf dirname (c :: names)) = some (c :: names ++ root) := by
  have hproper : Proper c := (fs.parent c _ hentry).1
  constructor
  · have hlt := h.paths (c :: names) hentry
    exact List.take_of_length_le (Nat.le_pred_of_lt hlt)
  · refine FileSystem.lookup_child hcwd hproper fun target hlink => ?_
    rw [FileSystem.node, Option.bind_eq_some_iff] at hlink
    rcases hlink with ⟨e, he, hnode⟩
    cases e with
    | file f => cases hnode
    | dir => cases hnode
    | link target' => exact h.links (c :: names) target' he

/-- A name in a directory of the tree adds what is below it, if the recursive
    call does so for a directory. -/
theorem countEntry_eq (h : Counts fs cwd listing dirname root files)
    {count : List UInt8 → Option Int} (hdir : fs.entry (names ++ root) = some .dir)
    (hcwd : fs.chdir cwd (pathOf dirname names) = some (names ++ root))
    (hc : c ∈ listing (names ++ root)) {n : Nat}
    (hcount : fs.entry (c :: names ++ root) = some .dir →
      count (pathOf dirname (c :: names)) = some (below fs root files (c :: names) : Int))
    (hsum : n + below fs root files (c :: names) < 2 ^ 31) :
    countEntry fs cwd count (pathOf dirname names) n c =
      some ((n + below fs root files (c :: names) : Nat) : Int) := by
  by_cases hdots : c = bytes "." ∨ c = bytes ".."
  · have hnone : fs.entry (c :: names ++ root) = none := by
      by_contra hentry
      have hproper := (fs.parent c _ hentry).1
      exact hdots.elim hproper.2.2.1 hproper.2.2.2
    rw [countEntry, if_pos hdots, below_none h hnone, Nat.add_zero]
  · have hentry : fs.entry (c :: names ++ root) ≠ none :=
      (or_assoc.mpr (((h.listing names hdir).2 c).mp hc)).resolve_left hdots
    rcases lookup_filePath h hcwd hentry with ⟨hpath, hlookup⟩
    rcases Option.ne_none_iff_exists'.mp hentry with ⟨e, he⟩
    rw [countEntry, if_neg hdots]
    simp only [hpath, hlookup, Option.bind_some]
    cases e with
    | dir =>
        simp only [he]
        rw [hcount he, Option.bind_some, addInt_eq (by omega) (by omega) (by omega),
          Int.natCast_add]
    | file f =>
        have hread : fs.openRead cwd (pathOf dirname (c :: names)) = some f.content := by
          unfold FileSystem.openRead
          rw [hlookup, Option.bind_some, he]
          exact if_pos (h.readable (c :: names) f he)
        simp only [he, hread]
        rw [below_file h he] at hsum ⊢
        rw [narrow_eq (by omega) (by omega), Int.natCast_add]
    | link target => exact absurd he (h.links (c :: names) target)

/-- The names add up. -/
theorem foldlM_entries (h : Counts fs cwd listing dirname root files)
    {count : List UInt8 → Option Int} (hdir : fs.entry (names ++ root) = some .dir)
    (hcwd : fs.chdir cwd (pathOf dirname names) = some (names ++ root))
    (hcount : ∀ c, fs.entry (c :: names ++ root) = some .dir →
      count (pathOf dirname (c :: names)) = some (below fs root files (c :: names) : Int))
    (l : List FileName) : ∀ n : Nat, l ⊆ listing (names ++ root) →
    n + (l.map fun c => below fs root files (c :: names)).sum < 2 ^ 31 →
    l.foldlM (countEntry fs cwd count (pathOf dirname names)) (n : Int) =
      some ((n + (l.map fun c => below fs root files (c :: names)).sum : Nat) : Int) := by
  induction l with
  | nil => intro n _ _; rfl
  | cons c l ih =>
      intro n hsub hsum
      rw [List.map_cons, List.sum_cons, ← Nat.add_assoc] at hsum ⊢
      rcases List.cons_subset.mp hsub with ⟨hc, hrest⟩
      rw [List.foldlM_cons, countEntry_eq h hdir hcwd hc (hcount c) (by omega)]
      exact ih _ hrest hsum

/-- A directory of the tree, with as many levels left as there are below it at
    most. -/
theorem countFrom_eq (h : Counts fs cwd listing dirname root files)
    (htotal : totalSize fs root files < 2 ^ 31) (levels : Nat) : ∀ names : Place,
    levels + (names.length + 1) = RECURSION_LIMIT → fs.entry (names ++ root) = some .dir →
    fs.chdir cwd (pathOf dirname names) = some (names ++ root) →
    countFrom fs cwd listing levels (pathOf dirname names) =
      some (below fs root files names : Int) := by
  induction levels with
  | zero =>
      intro names hlevels hdir _
      have hdepth := h.depth names hdir
      omega
  | succ levels ih =>
      intro names hlevels hdir hcwd
      have hcount : ∀ c, fs.entry (c :: names ++ root) = some .dir →
          countFrom fs cwd listing levels (pathOf dirname (c :: names)) =
            some (below fs root files (c :: names) : Int) := by
        intro c hchild
        have hentry : fs.entry (c :: names ++ root) ≠ none := by
          rw [hchild]
          exact Option.some_ne_none _
        refine ih (c :: names) (by rw [List.length_cons]; omega) hchild ?_
        exact FileSystem.chdir_eq_some_iff.mpr
          ⟨(lookup_filePath h hcwd hentry).2, FileSystem.node_eq_dir.mpr hchild⟩
      have hle : below fs root files names ≤ totalSize fs root files := below_le
      have hsum := below_dir h hdir
      have hloop := foldlM_entries h hdir hcwd hcount (listing (names ++ root)) 0
        (List.Subset.refl _) (by omega)
      rw [Nat.zero_add, ← hsum, Int.natCast_zero] at hloop
      rw [countFrom, hcwd]
      exact hloop

/-- Only an `int` is returned. -/
theorem countEntry_lt {count : List UInt8 → Option Int} {path : List UInt8} {n m : Int}
    (hn : n < 2 ^ 31) (h : countEntry fs cwd count path n c = some m) : m < 2 ^ 31 := by
  rw [countEntry] at h
  by_cases hdots : c = bytes "." ∨ c = bytes ".."
  · rw [if_pos hdots, Option.some.injEq] at h
    omega
  · rw [if_neg hdots] at h
    split at h
    · rw [Option.bind_eq_some_iff] at h
      rcases h with ⟨k, _, hadd⟩
      rw [addInt, Option.ite_none_right_eq_some, Option.some.injEq] at hadd
      omega
    · split at h
      · rw [Option.some.injEq] at h
        rw [← h]
        exact narrow_lt _
      · rw [Option.some.injEq] at h
        omega
    · rw [Option.some.injEq] at h
      omega

theorem countFrom_lt (levels : Nat) (path : List UInt8) {m : Int}
    (h : countFrom fs cwd listing levels path = some m) : m < 2 ^ 31 := by
  cases levels with
  | zero =>
      rw [countFrom, Option.some.injEq] at h
      omega
  | succ levels =>
      rw [countFrom] at h
      split at h
      · rw [Option.some.injEq] at h
        omega
      · rename_i dir _
        have hloop : ∀ (l : List FileName) (n : Int), n < 2 ^ 31 →
            l.foldlM (countEntry fs cwd (countFrom fs cwd listing levels) path) n = some m →
            m < 2 ^ 31 := by
          intro l
          induction l with
          | nil =>
              intro n hn hm
              cases hm
              exact hn
          | cons c l ih =>
              intro n hn hm
              rw [List.foldlM_cons, Option.bind_eq_bind, Option.bind_eq_some_iff] at hm
              rcases hm with ⟨k, hk, hrest⟩
              exact ih k (countEntry_lt hn hk) hrest
        exact hloop _ 0 (by decide) h

end Loop

/-- For a tree within the limits the counter returns the bytes of all its files
    exactly if there are fewer than 2 GiB. -/
theorem count_size_eq_iff (fs : FileSystem) (cwd root : Place)
    (listing : Place → List FileName) (dirname : List UInt8) (files : Finset Place)
    (h : Counts fs cwd listing dirname root files) :
    count_size fs cwd listing dirname 1 = some (totalSize fs root files : Int) ↔
      totalSize fs root files < 2 ^ 31 := by
  constructor
  · intro hcount
    have hlt := countFrom_lt _ _ hcount
    omega
  · intro htotal
    have hroot : fs.entry root = some .dir :=
      FileSystem.node_eq_dir.mp (FileSystem.chdir_eq_some_iff.mp h.chdir).2
    have hcount := countFrom_eq h htotal (RECURSION_LIMIT - 1) [] (by decide) hroot h.chdir
    rw [below_nil] at hcount
    exact hcount

section Single

/-- What is put below the directory is there, and nothing else changes. -/
theorem entry_put_below {fs : FileSystem} {p : Place} {e : Entry}
    (h : fs.CanHold (p ++ [bytes "a"])) (names : Place) :
    (fs.put (p ++ [bytes "a"]) e).entry (names ++ [bytes "a"]) =
      if names = p then some e else fs.entry (names ++ [bytes "a"]) := by
  rw [FileSystem.entry_put h]
  by_cases hp : names = p
  · rw [hp, if_pos rfl, Function.update_self]
  · rw [if_neg hp, Function.update_of_ne fun heq => hp (List.append_cancel_right heq)]

/-- A directory with one file of any content. -/
def single (content : List UInt8) : FileSystem :=
  (FileSystem.empty.put [bytes "a"] .dir).put [bytes "f", bytes "a"] (.file ⟨content, true, true⟩)

theorem entry_single (content : List UInt8) (names : Place) :
    (single content).entry (names ++ [bytes "a"]) =
      if names = [] then some .dir
      else if names = [bytes "f"] then some (.file ⟨content, true, true⟩) else none := by
  have hdir : FileSystem.empty.CanHold ([] ++ [bytes "a"]) := by decide +kernel
  have hfile : (FileSystem.empty.put [bytes "a"] .dir).CanHold ([bytes "f"] ++ [bytes "a"]) := by
    decide +kernel
  refine (entry_put_below hfile names).trans ?_
  by_cases hf : names = [bytes "f"]
  · rw [hf, if_pos rfl, if_neg (List.cons_ne_nil _ _)]
    rfl
  · rw [if_neg hf, if_neg hf]
    refine (entry_put_below hdir names).trans ?_
    by_cases hnil : names = []
    · rw [if_pos hnil, if_pos hnil]
    · rw [if_neg hnil, if_neg hnil]
      exact if_neg (List.append_ne_nil_of_left_ne_nil hnil _)

/-- A directory and a file are all there is. -/
theorem cases_single {content : List UInt8} {names : Place} {e : Entry}
    (h : (single content).entry (names ++ [bytes "a"]) = some e) :
    (names = [] ∧ e = .dir) ∨ (names = [bytes "f"] ∧ e = .file ⟨content, true, true⟩) := by
  rw [entry_single] at h
  split_ifs at h with hnil hf
  · exact Or.inl ⟨hnil, (Option.some.inj h).symm⟩
  · exact Or.inr ⟨hf, (Option.some.inj h).symm⟩

/-- It is a tree within the limits. -/
theorem counts_single (content : List UInt8) :
    Counts (single content) [] (fun _ => [bytes "f", bytes ".", bytes ".."]) (bytes "a")
      [bytes "a"] {[bytes "f"]} where
  chdir := FileSystem.chdir_name (by decide)
    (FileSystem.node_eq_dir.mpr (entry_single content []))
  files names := by
    rw [Finset.mem_singleton]
    constructor
    · rintro rfl
      exact ⟨_, entry_single content [bytes "f"]⟩
    · rintro ⟨f, hf⟩
      rcases cases_single hf with ⟨_, he⟩ | ⟨hnames, _⟩
      · cases he
      · exact hnames
  links names target h := by
    rcases cases_single h with ⟨_, he⟩ | ⟨_, he⟩ <;> cases he
  readable names f h := by
    rcases cases_single h with ⟨_, he⟩ | ⟨_, he⟩ <;> cases he
    rfl
  listing names h := by
    rcases cases_single h with ⟨rfl, _⟩ | ⟨_, he⟩
    · refine ⟨by decide, fun c => ?_⟩
      have hentry : (single content).entry (c :: ([] ++ [bytes "a"])) ≠ none ↔ c = bytes "f" := by
        have hc := entry_single content [c]
        rw [if_neg (List.cons_ne_nil _ _)] at hc
        change (single content).entry ([c] ++ [bytes "a"]) ≠ none ↔ _
        rw [hc]
        by_cases hf : c = bytes "f" <;> simp [hf]
      rw [hentry]
      simp only [List.mem_cons, List.not_mem_nil, or_false]
      tauto
    · cases he
  depth names h := by
    rcases cases_single h with ⟨rfl, _⟩ | ⟨_, he⟩
    · decide
    · cases he
  paths names h := by
    rcases Option.ne_none_iff_exists'.mp h with ⟨e, he⟩
    rcases cases_single he with ⟨rfl, _⟩ | ⟨rfl, _⟩ <;> decide

theorem totalSize_single (content : List UInt8) :
    totalSize (single content) [bytes "a"] {[bytes "f"]} = content.length := by
  rw [totalSize, Finset.sum_singleton, size, FileSystem.contentAt, entry_single,
    if_neg (List.cons_ne_nil _ _), if_pos rfl]

/-- For a file of 2 GiB something else is returned. -/
theorem count_size_huge :
    Counts (single (List.replicate (2 ^ 31) 0)) []
      (fun _ => [bytes "f", bytes ".", bytes ".."]) (bytes "a") [bytes "a"] {[bytes "f"]} ∧
    totalSize (single (List.replicate (2 ^ 31) 0)) [bytes "a"] {[bytes "f"]} = 2 ^ 31 ∧
    count_size (single (List.replicate (2 ^ 31) 0)) []
      (fun _ => [bytes "f", bytes ".", bytes ".."]) (bytes "a") 1 ≠ some (2 ^ 31) := by
  refine ⟨counts_single _, ?_, fun h => ?_⟩
  · rw [totalSize_single, List.length_replicate]
  · exact absurd (countFrom_lt _ _ h) (lt_irrefl _)

/-- There is another directory in it, with a file of its own. -/
def nested : FileSystem :=
  ((single (bytes "xy")).put [bytes "d", bytes "a"] .dir).put [bytes "g", bytes "d", bytes "a"]
    (.file ⟨bytes "z", true, true⟩)

theorem entry_nested (names : Place) :
    nested.entry (names ++ [bytes "a"]) =
      if names = [bytes "g", bytes "d"] then some (.file ⟨bytes "z", true, true⟩)
      else if names = [bytes "d"] then some .dir
      else (single (bytes "xy")).entry (names ++ [bytes "a"]) := by
  have hdir : (single (bytes "xy")).CanHold ([bytes "d"] ++ [bytes "a"]) := by decide +kernel
  have hfile : ((single (bytes "xy")).put [bytes "d", bytes "a"] .dir).CanHold
      ([bytes "g", bytes "d"] ++ [bytes "a"]) := by decide +kernel
  refine (entry_put_below hfile names).trans (if_congr Iff.rfl rfl ?_)
  exact entry_put_below hdir names

theorem cases_nested {names : Place} {e : Entry}
    (h : nested.entry (names ++ [bytes "a"]) = some e) :
    (names = [] ∧ e = .dir) ∨ (names = [bytes "f"] ∧ e = .file ⟨bytes "xy", true, true⟩) ∨
      (names = [bytes "d"] ∧ e = .dir) ∨
      (names = [bytes "g", bytes "d"] ∧ e = .file ⟨bytes "z", true, true⟩) := by
  rw [entry_nested] at h
  split_ifs at h with hg hd
  · exact Or.inr (Or.inr (Or.inr ⟨hg, (Option.some.inj h).symm⟩))
  · exact Or.inr (Or.inr (Or.inl ⟨hd, (Option.some.inj h).symm⟩))
  · exact (cases_single h).imp id Or.inl

/-- What `readdir` returns there. -/
def nestedListing (dir : Place) : List FileName :=
  if dir = [bytes "a"] then [bytes "f", bytes ".", bytes "d", bytes ".."]
  else [bytes "..", bytes "g", bytes "."]

theorem counts_nested :
    Counts nested [] nestedListing (bytes "a") [bytes "a"] {[bytes "f"], [bytes "g", bytes "d"]} where
  chdir := by decide +kernel
  files names := by
    rw [Finset.mem_insert, Finset.mem_singleton]
    constructor
    · rintro (rfl | rfl)
      · exact ⟨⟨bytes "xy", true, true⟩, rfl⟩
      · exact ⟨⟨bytes "z", true, true⟩, rfl⟩
    · rintro ⟨f, hf⟩
      rcases cases_nested hf with ⟨_, he⟩ | ⟨hnames, _⟩ | ⟨_, he⟩ | ⟨hnames, _⟩
      · cases he
      · exact Or.inl hnames
      · cases he
      · exact Or.inr hnames
  links names target h := by
    rcases cases_nested h with ⟨_, he⟩ | ⟨_, he⟩ | ⟨_, he⟩ | ⟨_, he⟩ <;> cases he
  readable names f h := by
    rcases cases_nested h with ⟨_, he⟩ | ⟨_, he⟩ | ⟨_, he⟩ | ⟨_, he⟩ <;> cases he <;> rfl
  listing names h := by
    rcases cases_nested h with ⟨rfl, _⟩ | ⟨_, he⟩ | ⟨rfl, _⟩ | ⟨_, he⟩
    · refine ⟨by decide, fun c => ?_⟩
      have hentry : nested.entry (c :: ([] ++ [bytes "a"])) ≠ none ↔
          c = bytes "d" ∨ c = bytes "f" := by
        rw [List.nil_append, ← List.singleton_append, entry_nested, entry_single]
        by_cases hd : c = bytes "d"
        · simp [hd]
        · by_cases hf : c = bytes "f"
          · rw [hf] at hd
            simp [hf, hd]
          · simp [hd, hf]
      rw [hentry]
      simp only [nestedListing, List.nil_append, if_true, List.mem_cons, List.not_mem_nil, or_false]
      tauto
    · cases he
    · refine ⟨by decide, fun c => ?_⟩
      have hentry : nested.entry (c :: ([bytes "d"] ++ [bytes "a"])) ≠ none ↔ c = bytes "g" := by
        rw [← List.singleton_append, ← List.append_assoc, entry_nested, entry_single]
        by_cases hg : c = bytes "g" <;> simp [hg]
      have hlisting : nestedListing ([bytes "d"] ++ [bytes "a"]) =
          [bytes "..", bytes "g", bytes "."] := by decide
      rw [hentry, hlisting]
      simp only [List.mem_cons, List.not_mem_nil, or_false]
      tauto
    · cases he
  depth names h := by
    rcases cases_nested h with ⟨rfl, _⟩ | ⟨_, he⟩ | ⟨rfl, _⟩ | ⟨_, he⟩
    · decide
    · cases he
    · decide
    · cases he
  paths names h := by
    rcases Option.ne_none_iff_exists'.mp h with ⟨e, he⟩
    rcases cases_nested he with ⟨rfl, _⟩ | ⟨rfl, _⟩ | ⟨rfl, _⟩ | ⟨rfl, _⟩ <;> decide

/-- The two files have three bytes. -/
theorem count_size_nested :
    count_size nested [] nestedListing (bytes "a") 1 = some 3 := by
  have htotal : totalSize nested [bytes "a"] {[bytes "f"], [bytes "g", bytes "d"]} = 3 := by
    decide +kernel
  have hcount := (count_size_eq_iff nested [] [bytes "a"] nestedListing (bytes "a")
    {[bytes "f"], [bytes "g", bytes "d"]} counts_nested).mpr (by rw [htotal]; decide)
  rw [htotal] at hcount
  exact hcount

end Single

end Counter

end Lab2

end OsLabs
