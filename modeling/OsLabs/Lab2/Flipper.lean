import OsLabs.Core.FileSystem
import OsLabs.Core.Run
import Mathlib.Data.List.Infix

/-!
# The Flipper

`flipper` reads every text file of a directory and writes it, back to front, to
a file in a second directory. It opens the files by their bare names, so for
each of them it changes to the directory, to the other one and back, and each
time by a path relative to where it stands. Whether a change succeeds it does
not ask.

`Placed` is what it is for: after each name it stands where it began, and a text
file that can be read has led to one in the directory beside. What this takes
is `Fits`, which is about the paths and the sizes. A file that is not a text file
takes that the directory is right below the start; for a text file it is the
other directory that has to be so. A path with two components is none of both,
and the files are written elsewhere.

The files are not closed, so they take descriptors and what is written may be in
a buffer until the program exits. How much of it is in the file before then is
a parameter, `early`.

## Main definitions

* `flipStep`: One iteration of the loop.
* `flipper`: The program, up to the streams that are flushed at its exit.
* `Placed`: What an iteration should do.
* `Fits`: When it does.

## Theorems

* `is_text_file_iff`: The names that `is_text_file` accepts.
* `readInto_eq`: The buffer written from its end is the file back to front.
* `flipStep_other`, `flipStep_text`: What an iteration does.
* `placed_iff`: The iterations do what they should exactly if each one fits.
* `misplaced`: A path with two components.
-/

namespace OsLabs

namespace Lab2

def PATH_SIZE : Nat := 30

/-- The size of `content`. -/
def CONTENT_SIZE : Nat := 1000000

/-- The size of `newfile`. -/
def NEWFILE_SIZE : Nat := 40

/-- The string from the last `c` on. -/
def strrchr (c : UInt8) : List UInt8 → Option (List UInt8)
  | [] => none
  | b :: s =>
    match strrchr c s with
    | some ext => some ext
    | none => if b = c then some (b :: s) else none

def is_text_file (filename : FileName) : Bool := strrchr 46 filename = some (bytes ".txt")

def newdirname (dirname : List UInt8) : List UInt8 := dirname ++ bytes "_reversed"

def newfile (d_name : FileName) : FileName := bytes "reversed_" ++ d_name

/-- The directory after `chdir`, the result of which nobody looks at. -/
def go (fs : FileSystem) (cwd : Place) (path : List UInt8) : Place := (fs.chdir cwd path).getD cwd

structure Flip where
  fs : FileSystem
  cwd : Place
  /-- The descriptors in use. -/
  open_files : Nat
  content : Nat → UInt8
  /-- The files open for writing and what has been written to them. -/
  streams : List (Place × List UInt8)

/-- Bytes are read into the buffer, unless they do not fit. -/
def readInto (content : Nat → UInt8) (file_size : Nat) :
    List UInt8 → Option ((Nat → UInt8) × Nat)
  | [] => some (content, file_size)
  | c :: rest =>
    if file_size < CONTENT_SIZE then
      readInto (Function.update content file_size c) (file_size + 1) rest
    else none

/-- What is written from the buffer, the last byte first. -/
def writeFrom (content : Nat → UInt8) : Nat → List UInt8
  | 0 => []
  | i + 1 => content i :: writeFrom content i

section Program

variable (OPEN_MAX : Nat) (early : Nat → Nat) (dirname : List UInt8)

/-- What `fopen` gives to read, in the directory the program has changed to. -/
def Flip.infile (s : Flip) (d_name : FileName) : Option (List UInt8) :=
  if s.open_files < OPEN_MAX then s.fs.openRead (go s.fs s.cwd dirname) d_name else none

/-- Where the program stands when it opens the new file. -/
def Flip.target (s : Flip) : Place :=
  go s.fs (go s.fs (go s.fs s.cwd dirname) (bytes "..")) (newdirname dirname)

/-- The new file, for which there must be a descriptor besides that of the old
    one. -/
def Flip.outfile (s : Flip) (d_name : FileName) : Option Place :=
  if s.open_files + 1 < OPEN_MAX then s.fs.openWrite (s.target dirname) (newfile d_name) else none

/-- The branch for a text file. It is undefined if the file does not fit into
    the buffer, or its new name, or if there is something to write and no file. -/
def reverseFile (s : Flip) (d_name : FileName) (text : List UInt8) : Option Flip :=
  (readInto s.content 0 text).bind fun buffer =>
    if (newfile d_name).length < NEWFILE_SIZE then
      match s.outfile OPEN_MAX dirname d_name with
      | some place =>
        let out := writeFrom buffer.1 buffer.2
        some
          { fs := s.fs.written place (out.take (early out.length))
            cwd := go s.fs (s.target dirname) (bytes "..")
            open_files := s.open_files + 2
            content := buffer.1
            streams := s.streams ++ [(place, out)] }
      | none =>
        if buffer.2 = 0 then
          some { s with
            cwd := go s.fs (s.target dirname) (bytes "..")
            open_files := s.open_files + 1
            content := buffer.1 }
        else none
    else none

/-- The loop of `reverse` for the next name that `readdir` returns. -/
def flipStep (s : Flip) (d_name : FileName) : Option Flip :=
  if d_name = bytes "." ∨ d_name = bytes ".." then some s
  else
    let back := go s.fs (go s.fs s.cwd dirname) (bytes "..")
    match s.infile OPEN_MAX dirname d_name with
    | some text =>
      if is_text_file d_name then reverseFile OPEN_MAX early dirname s d_name text
      else some { s with cwd := back, open_files := s.open_files + 1 }
    | none => some { s with cwd := back }

/-- The program at the loop, if the path fits into its array and the directory
    can be opened. Three descriptors are in use from the start. -/
def enter (fs : FileSystem) (start : Place) (content : Nat → UInt8) : Option Flip :=
  if dirname.length < PATH_SIZE ∧ 3 < OPEN_MAX ∧ (fs.chdir start dirname).isSome then
    some
      { fs := fs.mkdir start (newdirname dirname)
        cwd := start
        open_files := 4
        content := content
        streams := [] }
  else none

end Program

/-- What is still in the buffer of a stream is written. -/
def flush (fs : FileSystem) (stream : Place × List UInt8) : FileSystem :=
  match fs.entry stream.1 with
  | some (.file f) =>
    fs.put stream.1
      (.file { f with content := stream.2 ++ f.content.drop stream.2.length })
  | _ => fs

/-- The file system after the program has exited, if the directory can be
    opened and nothing undefined is done. -/
def flipper (OPEN_MAX : Nat) (early : Nat → Nat) (dirname : List UInt8) (fs : FileSystem)
    (start : Place) (content : Nat → UInt8) (names : List FileName) : Option FileSystem :=
  (enter OPEN_MAX dirname fs start content).bind fun s =>
    (run (flipStep OPEN_MAX early dirname) s names).map fun t => t.streams.foldl flush t.fs

section Functions

theorem strrchr_append {c : UInt8} {a : List UInt8} (ha : c ∉ a) (b : List UInt8) :
    strrchr c (a ++ b) = strrchr c b := by
  induction a with
  | nil => rfl
  | cons x a ih =>
      rw [List.mem_cons, not_or] at ha
      rw [List.cons_append, strrchr, ih ha.2]
      cases strrchr c b with
      | none => exact if_neg (Ne.symm ha.1)
      | some ext => rfl

/-- A `c` that is found in the rest is the last one. -/
theorem strrchr_append_some {c : UInt8} {b ext : List UInt8} (hb : strrchr c b = some ext)
    (a : List UInt8) : strrchr c (a ++ b) = some ext := by
  induction a with
  | nil => exact hb
  | cons x a ih => rw [List.cons_append, strrchr, ih]

theorem strrchr_suffix {c : UInt8} {s ext : List UInt8} (h : strrchr c s = some ext) :
    ext <:+ s := by
  induction s with
  | nil => cases h
  | cons b s ih =>
      rw [strrchr] at h
      cases hrest : strrchr c s with
      | none =>
          rw [hrest] at h
          simp only [Option.ite_none_right_eq_some, Option.some.injEq] at h
          rw [← h.2]
      | some t =>
          rw [hrest] at h
          exact (ih (hrest.trans h)).trans (List.suffix_cons b s)

/-- A text file is one whose name ends in `.txt`. -/
theorem is_text_file_iff (filename : FileName) :
    is_text_file filename = true ↔ bytes ".txt" <:+ filename := by
  rw [is_text_file, decide_eq_true_iff]
  constructor
  · exact strrchr_suffix
  · rintro ⟨stem, rfl⟩
    exact strrchr_append_some (by decide) stem

theorem is_text_file_newfile (d_name : FileName) :
    is_text_file (newfile d_name) = is_text_file d_name := by
  have hdot : (46 : UInt8) ∉ bytes "reversed_" := by decide
  rw [is_text_file, newfile, strrchr_append hdot]
  rfl

/-- A byte that has not been reached yet does not matter. -/
theorem writeFrom_update (content : Nat → UInt8) (c : UInt8) {i n : Nat} (h : n ≤ i) :
    writeFrom (Function.update content i c) n = writeFrom content n := by
  induction n with
  | zero => rfl
  | succ n ih =>
      rw [writeFrom, writeFrom, ih (by omega), Function.update_of_ne (by omega)]

/-- What has been read, on top of what was in the buffer below. -/
theorem readInto_eq (text : List UInt8) : ∀ (content : Nat → UInt8) (n : Nat),
    n + text.length ≤ CONTENT_SIZE → ∃ content',
      readInto content n text = some (content', n + text.length) ∧
      writeFrom content' (n + text.length) = text.reverse ++ writeFrom content n := by
  induction text with
  | nil =>
      intro content n _
      exact ⟨content, rfl, rfl⟩
  | cons c text ih =>
      intro content n h
      rw [List.length_cons] at h
      have hlt : n < CONTENT_SIZE := by omega
      rcases ih (Function.update content n c) (n + 1) (by omega) with ⟨content', hread, hwrite⟩
      have hlength : n + 1 + text.length = n + (c :: text).length := by
        rw [List.length_cons]
        omega
      rw [hlength] at hread hwrite
      refine ⟨content', by rw [readInto, if_pos hlt, hread], ?_⟩
      rw [hwrite, writeFrom, Function.update_self, writeFrom_update content c le_rfl,
        List.reverse_cons, List.append_assoc]
      rfl

/-- A file that is too long runs over the buffer. -/
theorem readInto_eq_none (text : List UInt8) : ∀ (content : Nat → UInt8) (n : Nat),
    n ≤ CONTENT_SIZE → CONTENT_SIZE < n + text.length → readInto content n text = none := by
  induction text with
  | nil =>
      intro content n hle hlt
      exact absurd hlt (not_lt.mpr hle)
  | cons c text ih =>
      intro content n _ hlt
      rw [List.length_cons] at hlt
      rw [readInto]
      split_ifs with hn
      · exact ih _ _ hn (by omega)
      · rfl

end Functions

/-- A text file of a directory that can be read. -/
def ReadableText (fs : FileSystem) (dir : Place) (d_name : FileName) : Prop :=
  bytes ".txt" <:+ d_name ∧
    ∃ q f, fs.lookup dir d_name = some q ∧ fs.entry q = some (.file f) ∧ f.readable = true

section Properties

variable (OPEN_MAX : Nat) (early : Nat → Nat) (dirname : List UInt8) (start dir : Place)

/-- After the iteration the program stands where it began, and a text file of
    the directory that can be read has led to a file in the other one. -/
def Placed (s : Flip) (d_name : FileName) : Prop :=
  ∃ t, flipStep OPEN_MAX early dirname s d_name = some t ∧ t.cwd = start ∧
    (ReadableText s.fs dir d_name → ∃ other, s.fs.chdir start (newdirname dirname) = some other ∧
      ∃ f out, t.fs.entry (newfile d_name :: other) = some (.file f) ∧
        t.streams = s.streams ++ [(newfile d_name :: other, out)])

/-- The name is opened and taken for that of a text file. -/
def Opened (s : Flip) (d_name : FileName) : Prop :=
  s.open_files < OPEN_MAX ∧ (s.fs.openRead dir d_name).isSome ∧ bytes ".txt" <:+ d_name

/-- What an iteration takes: for a name that is not opened as a text file the
    directory is right below the start, and for one that is opened the other
    directory is, and there is room for the file and for its name. A text file
    needs a descriptor more, and a place in the other directory. -/
structure Fits (s : Flip) (d_name : FileName) : Prop where
  other : ¬ Opened OPEN_MAX dir s d_name → dir.tail = start
  text : ∀ text, Opened OPEN_MAX dir s d_name → s.fs.openRead dir d_name = some text →
    text.length ≤ CONTENT_SIZE ∧ (newfile d_name).length < NEWFILE_SIZE ∧
      (go s.fs dir.tail (newdirname dirname)).tail = start
  new : ReadableText s.fs dir d_name → s.open_files + 1 < OPEN_MAX ∧
    ∃ other, s.fs.chdir start (newdirname dirname) = some other ∧
      s.fs.openWrite (go s.fs dir.tail (newdirname dirname)) (newfile d_name) =
        some (newfile d_name :: other)

/-- The program stands where it began and can change to the directory. -/
structure Home (s : Flip) : Prop where
  cwd_eq : s.cwd = start
  start_dir : s.fs.node start = some .dir
  chdir_eq : s.fs.chdir start dirname = some dir

end Properties

section Moves

variable {fs : FileSystem} {cwd p : Place} {path : List UInt8}

theorem go_of_chdir (h : fs.chdir cwd path = some p) : go fs cwd path = p := by
  rw [go, h, Option.getD_some]

theorem go_parent (h : fs.node p = some .dir) : go fs p (bytes "..") = p.tail :=
  go_of_chdir (FileSystem.chdir_parent h)

/-- The program always stands in a directory. -/
theorem node_go (h : fs.node cwd = some .dir) : fs.node (go fs cwd path) = some .dir := by
  cases hchdir : fs.chdir cwd path with
  | none => rwa [go, hchdir, Option.getD_none]
  | some p =>
      rw [go_of_chdir hchdir]
      exact (FileSystem.chdir_eq_some_iff.mp hchdir).2

/-- What can be read from a file is there, and only a file has anything. -/
theorem openRead_of_readableText {d_name : FileName} (h : ReadableText fs p d_name) :
    (fs.openRead p d_name).isSome = true := by
  rcases h.2 with ⟨q, f, hlookup, hentry, hreadable⟩
  unfold FileSystem.openRead
  rw [hlookup, Option.bind_some, hentry]
  simp only [hreadable, if_true, Option.isSome_some]

theorem readableText_of_openRead {d_name : FileName} {text : List UInt8}
    (hname : bytes ".txt" <:+ d_name) (h : fs.openRead p d_name = some text) (htext : text ≠ []) :
    ReadableText fs p d_name := by
  unfold FileSystem.openRead at h
  cases hlookup : fs.lookup p d_name with
  | none =>
      rw [hlookup] at h
      cases h
  | some q =>
      rw [hlookup, Option.bind_some] at h
      cases hentry : fs.entry q with
      | none => simp only [hentry, reduceCtorEq] at h
      | some e =>
          cases e with
          | file f =>
              simp only [hentry, Option.ite_none_right_eq_some] at h
              exact ⟨hname, q, f, hlookup, hentry, h.1⟩
          | dir =>
              simp only [hentry, Option.some.injEq] at h
              exact absurd h.symm htext
          | link target => simp only [hentry, reduceCtorEq] at h

end Moves

section Steps

variable {OPEN_MAX : Nat} {early : Nat → Nat} {dirname : List UInt8} {start dir : Place}
variable {s : Flip} {d_name : FileName}

theorem Home.there (h : Home dirname start dir s) : go s.fs s.cwd dirname = dir := by
  rw [h.cwd_eq]
  exact go_of_chdir h.chdir_eq

theorem Home.node_dir (h : Home dirname start dir s) : s.fs.node dir = some .dir :=
  (FileSystem.chdir_eq_some_iff.mp h.chdir_eq).2

theorem Home.back (h : Home dirname start dir s) :
    go s.fs (go s.fs s.cwd dirname) (bytes "..") = dir.tail := by
  rw [h.there]
  exact go_parent h.node_dir

theorem Home.target (h : Home dirname start dir s) :
    s.target dirname = go s.fs dir.tail (newdirname dirname) := by
  rw [Flip.target, h.back]

theorem Home.node_target (h : Home dirname start dir s) :
    s.fs.node (s.target dirname) = some .dir := by
  rw [h.target]
  exact node_go (FileSystem.node_tail h.node_dir)

/-- A name that is not opened as a text file only moves the program. -/
theorem flipStep_other (h : Home dirname start dir s)
    (hname : ¬ (d_name = bytes "." ∨ d_name = bytes ".."))
    (hother : ¬ Opened OPEN_MAX dir s d_name) :
    ∃ n ≤ s.open_files + 1, flipStep OPEN_MAX early dirname s d_name =
      some { s with cwd := dir.tail, open_files := n } := by
  rw [flipStep, if_neg hname, h.back]
  cases hinfile : s.infile OPEN_MAX dirname d_name with
  | none => exact ⟨s.open_files, Nat.le_succ _, rfl⟩
  | some text =>
      rw [Flip.infile, h.there, Option.ite_none_right_eq_some] at hinfile
      have htext : is_text_file d_name = false := by
        rw [Bool.eq_false_iff]
        intro htext
        exact hother ⟨hinfile.1, by rw [hinfile.2]; rfl, (is_text_file_iff d_name).mp htext⟩
      refine ⟨s.open_files + 1, le_rfl, ?_⟩
      simp only [htext, Bool.false_eq_true, if_false]

/-- A name that is opened as a text file is reversed. -/
theorem flipStep_text (h : Home dirname start dir s) (hopened : Opened OPEN_MAX dir s d_name)
    {text : List UInt8} (htext : s.fs.openRead dir d_name = some text) :
    flipStep OPEN_MAX early dirname s d_name =
      reverseFile OPEN_MAX early dirname s d_name text := by
  have hname : ¬ (d_name = bytes "." ∨ d_name = bytes "..") := by
    rintro (rfl | rfl) <;> exact absurd hopened.2.2 (by decide)
  have hinfile : s.infile OPEN_MAX dirname d_name = some text := by
    rw [Flip.infile, if_pos hopened.1, h.there, htext]
  rw [flipStep, if_neg hname]
  simp only [hinfile, (is_text_file_iff d_name).mpr hopened.2.2, if_true]

/-- A file or a name without room for it runs over an array. -/
theorem reverseFile_eq_none {text : List UInt8}
    (h : ¬ (text.length ≤ CONTENT_SIZE ∧ (newfile d_name).length < NEWFILE_SIZE)) :
    reverseFile OPEN_MAX early dirname s d_name text = none := by
  rw [reverseFile]
  by_cases hsize : text.length ≤ CONTENT_SIZE
  · rcases readInto_eq text s.content 0 (by omega) with ⟨content, hread, _⟩
    rw [hread, Option.bind_some, if_neg fun hname => h ⟨hsize, hname⟩]
  · rw [readInto_eq_none text s.content 0 (Nat.zero_le _) (by omega), Option.bind_none]

variable (OPEN_MAX early) in
/-- Otherwise the new file gets the bytes back to front. -/
theorem reverseFile_eq (h : Home dirname start dir s) {text : List UInt8}
    (hsize : text.length ≤ CONTENT_SIZE) (hname : (newfile d_name).length < NEWFILE_SIZE) :
    ∃ content, reverseFile OPEN_MAX early dirname s d_name text =
      match s.outfile OPEN_MAX dirname d_name with
      | some place =>
        some
          { fs := s.fs.written place (text.reverse.take (early text.length))
            cwd := (s.target dirname).tail
            open_files := s.open_files + 2
            content := content
            streams := s.streams ++ [(place, text.reverse)] }
      | none =>
        if text = [] then
          some { s with
            cwd := (s.target dirname).tail
            open_files := s.open_files + 1
            content := content }
        else none := by
  rcases readInto_eq text s.content 0 (by omega) with ⟨content, hread, hwrite⟩
  rw [Nat.zero_add] at hread hwrite
  rw [writeFrom, List.append_nil] at hwrite
  refine ⟨content, ?_⟩
  rw [reverseFile, hread, Option.bind_some, if_pos hname, go_parent h.node_target]
  simp only [hwrite, List.length_reverse, List.length_eq_zero_iff]

/-- The new file is opened if there is a descriptor for it and it can be
    written. -/
theorem outfile_eq_some_iff (h : Home dirname start dir s) {q : Place} :
    s.outfile OPEN_MAX dirname d_name = some q ↔ s.open_files + 1 < OPEN_MAX ∧
      s.fs.openWrite (go s.fs dir.tail (newdirname dirname)) (newfile d_name) = some q := by
  rw [Flip.outfile, h.target, Option.ite_none_right_eq_some]

/-- A name that is not opened as a text file: the directory must be below the
    start, and it must not be a text file that should have been read. -/
theorem placed_iff_other (h : Home dirname start dir s)
    (hname : ¬ (d_name = bytes "." ∨ d_name = bytes ".."))
    (hother : ¬ Opened OPEN_MAX dir s d_name) :
    Placed OPEN_MAX early dirname start dir s d_name ↔
      Fits OPEN_MAX dirname start dir s d_name := by
  have hclosed : ReadableText s.fs dir d_name → OPEN_MAX ≤ s.open_files := fun hread =>
    not_lt.mp fun hlt => hother ⟨hlt, openRead_of_readableText hread, hread.1⟩
  rcases flipStep_other h hname hother with ⟨n, _, hstep⟩
  constructor
  · rintro ⟨t, ht, hcwd, hnew⟩
    rw [hstep, Option.some.injEq] at ht
    rw [← ht] at hcwd hnew
    refine ⟨fun _ => hcwd, fun _ hopened => absurd hopened hother, fun hread => ?_⟩
    rcases hnew hread with ⟨_, _, _, _, _, hstreams⟩
    exact absurd (List.self_eq_append_right.mp hstreams) (List.cons_ne_nil _ _)
  · intro hfits
    refine ⟨_, hstep, hfits.other hother, fun hread => ?_⟩
    have hroom := (hfits.new hread).1
    exact absurd (hclosed hread) (by omega)

/-- For a text file that has been opened and fits into the arrays, the condition is
    about where the new file is. -/
theorem fits_iff_of_text (h : Home dirname start dir s) (hopened : Opened OPEN_MAX dir s d_name)
    {text : List UInt8} (htext : s.fs.openRead dir d_name = some text)
    (hsize : text.length ≤ CONTENT_SIZE) (hname : (newfile d_name).length < NEWFILE_SIZE) :
    Fits OPEN_MAX dirname start dir s d_name ↔ (s.target dirname).tail = start ∧
      (ReadableText s.fs dir d_name → ∃ other, s.fs.chdir start (newdirname dirname) = some other ∧
        s.outfile OPEN_MAX dirname d_name = some (newfile d_name :: other)) := by
  rw [h.target]
  constructor
  · intro hfits
    refine ⟨(hfits.text text hopened htext).2.2, fun hread => ?_⟩
    rcases hfits.new hread with ⟨hroom, other, hchdir, hwrite⟩
    exact ⟨other, hchdir, (outfile_eq_some_iff h).mpr ⟨hroom, hwrite⟩⟩
  · rintro ⟨htail, hnew⟩
    refine ⟨fun hother => absurd hopened hother, fun text' _ htext' => ?_, fun hread => ?_⟩
    · rw [htext, Option.some.injEq] at htext'
      rw [← htext']
      exact ⟨hsize, hname, htail⟩
    · rcases hnew hread with ⟨other, hchdir, hout⟩
      rcases (outfile_eq_some_iff h).mp hout with ⟨hroom, hwrite⟩
      exact ⟨hroom, other, hchdir, hwrite⟩

/-- The new file cannot be opened. With nothing to write that does no harm. -/
theorem placed_iff_unwritten (h : Home dirname start dir s)
    (hopened : Opened OPEN_MAX dir s d_name) {text : List UInt8}
    (htext : s.fs.openRead dir d_name = some text) (hsize : text.length ≤ CONTENT_SIZE)
    (hname : (newfile d_name).length < NEWFILE_SIZE)
    (hout : s.outfile OPEN_MAX dirname d_name = none) :
    Placed OPEN_MAX early dirname start dir s d_name ↔
      Fits OPEN_MAX dirname start dir s d_name := by
  have hstep : flipStep OPEN_MAX early dirname s d_name =
      reverseFile OPEN_MAX early dirname s d_name text := flipStep_text h hopened htext
  rcases reverseFile_eq OPEN_MAX early h hsize hname with ⟨content, hreverse⟩
  rw [hreverse] at hstep
  simp only [hout] at hstep
  rw [fits_iff_of_text h hopened htext hsize hname]
  by_cases hempty : text = []
  · rw [if_pos hempty] at hstep
    constructor
    · rintro ⟨t, ht, hcwd, hnew⟩
      rw [hstep, Option.some.injEq] at ht
      rw [← ht] at hcwd hnew
      refine ⟨hcwd, fun hread => ?_⟩
      rcases hnew hread with ⟨_, _, _, _, _, hstreams⟩
      exact absurd (List.self_eq_append_right.mp hstreams) (List.cons_ne_nil _ _)
    · rintro ⟨htail, hnew⟩
      refine ⟨_, hstep, htail, fun hread => ?_⟩
      rcases hnew hread with ⟨_, _, hsome⟩
      rw [hout] at hsome
      cases hsome
  · -- Nothing is written, and the text file should have been.
    rw [if_neg hempty] at hstep
    refine iff_of_false (fun ⟨t, ht, _⟩ => ?_) fun ⟨_, hnew⟩ => ?_
    · rw [hstep] at ht
      cases ht
    · rcases hnew (readableText_of_openRead hopened.2.2 htext hempty) with ⟨_, _, hsome⟩
      rw [hout] at hsome
      cases hsome

/-- The new file is opened. -/
theorem placed_iff_written (h : Home dirname start dir s) (hopened : Opened OPEN_MAX dir s d_name)
    {text : List UInt8} (htext : s.fs.openRead dir d_name = some text)
    (hsize : text.length ≤ CONTENT_SIZE) (hname : (newfile d_name).length < NEWFILE_SIZE)
    {q : Place} (hout : s.outfile OPEN_MAX dirname d_name = some q) :
    Placed OPEN_MAX early dirname start dir s d_name ↔
      Fits OPEN_MAX dirname start dir s d_name := by
  have hstep : flipStep OPEN_MAX early dirname s d_name =
      reverseFile OPEN_MAX early dirname s d_name text := flipStep_text h hopened htext
  rcases reverseFile_eq OPEN_MAX early h hsize hname with ⟨content, hreverse⟩
  rw [hreverse] at hstep
  simp only [hout] at hstep
  rw [fits_iff_of_text h hopened htext hsize hname]
  constructor
  · rintro ⟨t, ht, hcwd, hnew⟩
    rw [hstep, Option.some.injEq] at ht
    rw [← ht] at hcwd hnew
    refine ⟨hcwd, fun hread => ?_⟩
    rcases hnew hread with ⟨other, hchdir, _, _, _, hstreams⟩
    rw [List.append_cancel_left_eq, List.cons.injEq, Prod.mk.injEq] at hstreams
    rw [hstreams.1.1] at hout
    exact ⟨other, hchdir, hout⟩
  · rintro ⟨htail, hnew⟩
    refine ⟨_, hstep, htail, fun hread => ?_⟩
    rcases hnew hread with ⟨other, hchdir, hsome⟩
    rw [hout, Option.some.injEq] at hsome
    have hhold : s.fs.CanHold q :=
      FileSystem.canHold_of_openWrite (node_go (FileSystem.node_tail h.node_dir))
        ((outfile_eq_some_iff h).mp hout).2
    rcases FileSystem.entry_written hhold (text.reverse.take (early text.length)) with
      ⟨f, _, hentry⟩
    refine ⟨other, hchdir, f, text.reverse, ?_, ?_⟩
    · rw [hentry, ← hsome, Function.update_self]
    · rw [hsome]

/-- A text file that has been opened: it and its name must fit, the other
    directory must be below the start, and the new file must be in it. -/
theorem placed_iff_text (h : Home dirname start dir s) (hopened : Opened OPEN_MAX dir s d_name) :
    Placed OPEN_MAX early dirname start dir s d_name ↔
      Fits OPEN_MAX dirname start dir s d_name := by
  rcases Option.isSome_iff_exists.mp hopened.2.1 with ⟨text, htext⟩
  by_cases hbounds : text.length ≤ CONTENT_SIZE ∧ (newfile d_name).length < NEWFILE_SIZE
  · cases hout : s.outfile OPEN_MAX dirname d_name with
    | none => exact placed_iff_unwritten h hopened htext hbounds.1 hbounds.2 hout
    | some q => exact placed_iff_written h hopened htext hbounds.1 hbounds.2 hout
  · refine iff_of_false (fun ⟨t, ht, _⟩ => ?_) fun hfits => ?_
    · rw [flipStep_text h hopened htext, reverseFile_eq_none hbounds] at ht
      cases ht
    · have htexts := hfits.text text hopened htext
      exact hbounds ⟨htexts.1, htexts.2.1⟩

theorem node_reverseFile {text : List UInt8} {t : Flip}
    (h : reverseFile OPEN_MAX early dirname s d_name text = some t) : t.fs.node = s.fs.node := by
  rw [reverseFile, Option.bind_eq_some_iff] at h
  rcases h with ⟨buffer, _, h⟩
  rw [Option.ite_none_right_eq_some] at h
  rcases h with ⟨_, h⟩
  cases hout : s.outfile OPEN_MAX dirname d_name with
  | none =>
      simp only [hout, Option.ite_none_right_eq_some, Option.some.injEq] at h
      rw [← h.2]
  | some place =>
      simp only [hout, Option.some.injEq] at h
      rw [← h]
      exact FileSystem.node_written _

/-- An iteration makes no directory and no link. -/
theorem node_flipStep {t : Flip} (h : flipStep OPEN_MAX early dirname s d_name = some t) :
    t.fs.node = s.fs.node := by
  rw [flipStep] at h
  by_cases hname : d_name = bytes "." ∨ d_name = bytes ".."
  · rw [if_pos hname, Option.some.injEq] at h
    rw [h]
  · rw [if_neg hname] at h
    cases hinfile : s.infile OPEN_MAX dirname d_name with
    | none =>
        simp only [hinfile, Option.some.injEq] at h
        rw [← h]
    | some text =>
        simp only [hinfile] at h
        by_cases htext : is_text_file d_name = true
        · rw [if_pos htext] at h
          exact node_reverseFile h
        · rw [if_neg htext, Option.some.injEq] at h
          rw [← h]

/-- A name other than `.` and `..`, which are passed over. -/
theorem placed_iff_fits (h : Home dirname start dir s)
    (hname : ¬ (d_name = bytes "." ∨ d_name = bytes "..")) :
    Placed OPEN_MAX early dirname start dir s d_name ↔
      Fits OPEN_MAX dirname start dir s d_name := by
  by_cases hopened : Opened OPEN_MAX dir s d_name
  · exact placed_iff_text h hopened
  · exact placed_iff_other h hname hopened

/-- The program has passed over the name, in the state it is in. -/
theorem placed_of_dots (h : Home dirname start dir s)
    (hname : d_name = bytes "." ∨ d_name = bytes "..") :
    Placed OPEN_MAX early dirname start dir s d_name := by
  refine ⟨s, if_pos hname, h.cwd_eq, fun hread => ?_⟩
  rcases hname with rfl | rfl <;> exact absurd hread.1 (by decide)

/-- Where it stands after an iteration it can go on as it has begun. -/
theorem home_flipStep (h : Home dirname start dir s) {t : Flip}
    (hplaced : Placed OPEN_MAX early dirname start dir s d_name)
    (hstep : flipStep OPEN_MAX early dirname s d_name = some t) : Home dirname start dir t := by
  rcases hplaced with ⟨u, hu, hcwd, _⟩
  rw [hstep, Option.some.injEq] at hu
  have hnode := node_flipStep hstep
  refine ⟨hu ▸ hcwd, ?_, ?_⟩
  · rw [hnode]
    exact h.start_dir
  · rw [FileSystem.chdir_congr hnode]
    exact h.chdir_eq

theorem home_enter {fs : FileSystem} {content : Nat → UInt8} (hstart : fs.node start = some .dir)
    (hdir : fs.chdir start dirname = some dir)
    (h : enter OPEN_MAX dirname fs start content = some s) : Home dirname start dir s := by
  rw [enter, Option.ite_none_right_eq_some, Option.some.injEq] at h
  rw [← h.2]
  exact ⟨rfl, FileSystem.node_mkdir hstart,
    FileSystem.chdir_mono (fun _ _ => FileSystem.node_mkdir) hdir⟩

end Steps

/-- For every path to a directory and all names, in the order in which `readdir`
    returns them: after each iteration the program stands where it began, and
    the text file has led to one in the other directory, exactly if every
    iteration fits. -/
theorem placed_iff (OPEN_MAX : Nat) (early : Nat → Nat) (dirname : List UInt8) (fs : FileSystem)
    (start dir : Place) (content : Nat → UInt8) (s : Flip) (names : List FileName)
    (hstart : fs.node start = some .dir) (hdir : fs.chdir start dirname = some dir)
    (henter : enter OPEN_MAX dirname fs start content = some s) :
    Meets (flipStep OPEN_MAX early dirname) (Placed OPEN_MAX early dirname start dir) s names ↔
      Meets (flipStep OPEN_MAX early dirname)
        (fun s d_name => d_name = bytes "." ∨ d_name = bytes ".." ∨
          Fits OPEN_MAX dirname start dir s d_name) s names := by
  refine meets_congr (fun v d_name w hv _ => ?_)
    (fun v d_name w hv hplaced hstep => home_flipStep hv hplaced hstep) names
    (home_enter hstart hdir henter)
  rw [← or_assoc]
  by_cases hname : d_name = bytes "." ∨ d_name = bytes ".."
  · exact iff_of_true (placed_of_dots hv hname) (Or.inl hname)
  · rw [or_iff_right hname]
    exact placed_iff_fits hv hname

section Two

/-- A directory `a/b` with a text file and another file. -/
def tree : FileSystem :=
  (((FileSystem.empty.put [bytes "a"] .dir).put [bytes "b", bytes "a"] .dir).put
    [bytes "t.txt", bytes "b", bytes "a"] (.file ⟨bytes "xy", true, true⟩)).put
    [bytes "n", bytes "b", bytes "a"] (.file ⟨[], true, true⟩)

/-- The program for a path in that tree, when it comes to the loop. -/
def entered (path : List UInt8) : Flip :=
  { fs := tree.mkdir [] (newdirname path)
    cwd := []
    open_files := 4
    content := fun _ => 0
    streams := [] }

/-- For a path with two components the text file is written to the directory in
    between, and after the other file the program is left there. -/
theorem misplaced :
    tree.chdir [] (bytes "a/b") = some [bytes "b", bytes "a"] ∧
    enter 20 (bytes "a/b") tree [] (fun _ => 0) = some (entered (bytes "a/b")) ∧
    ¬ Placed 20 id (bytes "a/b") [] [bytes "b", bytes "a"] (entered (bytes "a/b"))
      (bytes "t.txt") ∧
    ¬ Placed 20 id (bytes "a/b") [] [bytes "b", bytes "a"] (entered (bytes "a/b"))
      (bytes "n") := by
  have hdir : tree.chdir [] (bytes "a/b") = some [bytes "b", bytes "a"] := by decide +kernel
  refine ⟨hdir, if_pos ⟨by decide, by decide, by rw [hdir]; rfl⟩, ?_, ?_⟩
  · rintro ⟨t, ht, _, hnew⟩
    have hstreams : (flipStep 20 id (bytes "a/b") (entered (bytes "a/b")) (bytes "t.txt")).map
        (fun t => t.streams) = some [([bytes "reversed_t.txt", bytes "a"], bytes "yx")] := by
      decide +kernel
    have hother : (entered (bytes "a/b")).fs.chdir [] (newdirname (bytes "a/b")) =
        some [bytes "b_reversed", bytes "a"] := by decide +kernel
    have hread : ReadableText (entered (bytes "a/b")).fs [bytes "b", bytes "a"]
        (bytes "t.txt") :=
      ⟨⟨bytes "t", by decide⟩, [bytes "t.txt", bytes "b", bytes "a"], ⟨bytes "xy", true, true⟩,
        by decide +kernel, by decide +kernel, rfl⟩
    rcases hnew hread with ⟨other, hchdir, f, out, _, heq⟩
    rw [hother, Option.some.injEq] at hchdir
    rw [ht, Option.map_some, Option.some.injEq, heq, ← hchdir] at hstreams
    cases hstreams
  · rintro ⟨t, ht, hcwd, _⟩
    have hleft : (flipStep 20 id (bytes "a/b") (entered (bytes "a/b")) (bytes "n")).map
        (fun t => t.cwd) = some [bytes "a"] := by decide +kernel
    rw [ht, Option.map_some, Option.some.injEq, hcwd] at hleft
    cases hleft

/-- A directory right below the start with a text file and another file. -/
def pair : FileSystem :=
  ((FileSystem.empty.put [bytes "a"] .dir).put
    [bytes "t.txt", bytes "a"] (.file ⟨bytes "xy", true, true⟩)).put
    [bytes "n", bytes "a"] (.file ⟨[], true, true⟩)

/-- The text file is written to the other directory back to front, and the
    program is at the start after both files. -/
theorem placed_iff_pair :
    ∃ s, enter 20 (bytes "a") pair [] (fun _ => 0) = some s ∧
      Meets (flipStep 20 id (bytes "a")) (Placed 20 id (bytes "a") [] [bytes "a"]) s
        [bytes "t.txt", bytes "n"] ∧
      (run (flipStep 20 id (bytes "a")) s [bytes "t.txt", bytes "n"]).map (fun s => s.streams)
        = some [([bytes "reversed_t.txt", bytes "a_reversed"], bytes "yx")] := by
  have hsome : (enter 20 (bytes "a") pair [] fun _ => 0).isSome = true := by decide +kernel
  rcases Option.isSome_iff_exists.mp hsome with ⟨s, hs⟩
  have hdir : pair.chdir [] (bytes "a") = some [bytes "a"] := by decide +kernel
  -- What there is for the text file.
  have htext : (enter 20 (bytes "a") pair [] fun _ => 0).map (fun s =>
      (s.fs.openRead [bytes "a"] (bytes "t.txt"), s.open_files)) = some (some (bytes "xy"), 4) := by
    decide +kernel
  have hother : (enter 20 (bytes "a") pair [] fun _ => 0).map (fun s =>
      (s.fs.chdir [] (newdirname (bytes "a")), go s.fs [] (newdirname (bytes "a")),
        s.fs.openWrite (go s.fs [] (newdirname (bytes "a"))) (newfile (bytes "t.txt"))))
      = some (some [bytes "a_reversed"], [bytes "a_reversed"],
        some [newfile (bytes "t.txt"), bytes "a_reversed"]) := by decide +kernel
  have hstreams : ((enter 20 (bytes "a") pair [] fun _ => 0).bind fun s =>
      run (flipStep 20 id (bytes "a")) s [bytes "t.txt", bytes "n"]).map (fun s => s.streams)
        = some [([bytes "reversed_t.txt", bytes "a_reversed"], bytes "yx")] := by decide +kernel
  rw [hs] at htext hother
  rw [hs, Option.bind_some] at hstreams
  simp only [Option.map_some, Option.some.injEq, Prod.mk.injEq] at htext hother
  rcases Option.map_eq_some_iff.mp hstreams with ⟨u, hrun, _⟩
  rcases run_cons_eq_some.mp hrun with ⟨t, hstep, hrun'⟩
  rcases run_cons_eq_some.mp hrun' with ⟨v, hstep', _⟩
  refine ⟨s, hs, ?_, hstreams⟩
  refine (placed_iff 20 id (bytes "a") pair [] [bytes "a"] (fun _ => 0) s
    [bytes "t.txt", bytes "n"] (by decide +kernel) hdir hs).mpr
    ((meets_cons hstep).mpr ⟨Or.inr (Or.inr ?_), (meets_cons hstep').mpr ⟨Or.inr (Or.inr ?_),
      trivial⟩⟩)
  · refine ⟨fun _ => rfl, fun text _ hopened => ?_, fun _ => ⟨?_, [bytes "a_reversed"], hother.1,
      hother.2.2⟩⟩
    · rw [htext.1, Option.some.injEq] at hopened
      rw [← hopened, List.tail_cons, hother.2.1]
      exact ⟨by decide, by decide, rfl⟩
    · rw [htext.2]
      decide
  · have hname : ¬ bytes ".txt" <:+ bytes "n" := by decide
    exact ⟨fun _ => rfl, fun _ hopened => absurd hopened.2.2 hname,
      fun hread => absurd hread.1 hname⟩

end Two

end Lab2

end OsLabs
