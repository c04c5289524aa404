import OsLabs.Lab2.Flipper
import Mathlib.Data.List.Nodup

/-!
# Reversing Twice

For a directory right below the start nothing goes wrong in `flipper`, and what
it does to the file system can be said at once: beside the directory there is a
new one, and in it, for each text file, a file with the bytes back to front.
`Reversed` is that relation, and two of them in a row give the bytes back.

During the loop the new files are pending: what is in them is some first part of
what has been written. The invariant `Reversing` says that these, under the
names of the text files that have been read so far, are all that has changed, so
the files that are still to be read are as they were. At the exit each of them
gets the rest.

## Main definitions

* `Suits`: A directory that can be reversed.
* `Reversed`: What the program makes of it.
* `Reversing`: The invariant of the loop.

## Theorems

* `foldl_flush`: The streams are flushed one after the other.
* `reversing_step`: An iteration keeps the invariant.
* `reversing_run`: So does the loop.
* `flipper_reversed`: The program reverses a directory.
* `flipper_involution`: Twice, and the files are there again.
-/

namespace OsLabs

namespace Lab2

/-- A directory right below the start with nothing but files that can be read,
    the text files among them not too long, and nothing in the way. -/
structure Suits (fs : FileSystem) (start : Place) (d : FileName) : Prop where
  start_dir : fs.node start = some .dir
  proper : Proper d
  length_lt : d.length < PATH_SIZE
  dir : fs.entry (d :: start) = some .dir
  new : fs.entry (newdirname d :: start) = none
  files : ∀ c e, fs.entry (c :: d :: start) = some e → ∃ f, e = .file f ∧ f.readable = true ∧
    (bytes ".txt" <:+ c → (newfile c).length < NEWFILE_SIZE ∧ f.content.length ≤ CONTENT_SIZE)

/-- The other directory has the text files back to front, and nothing else has
    changed. -/
structure Reversed (fs fs' : FileSystem) (start : Place) (d : FileName) : Prop where
  dir : fs'.entry (newdirname d :: start) = some .dir
  text : ∀ c f, bytes ".txt" <:+ c → fs.entry (c :: d :: start) = some (.file f) →
    fs'.entry (newfile c :: newdirname d :: start) =
      some (.file ⟨f.content.reverse, true, true⟩)
  other : ∀ q, q ≠ newdirname d :: start →
    (∀ c f, bytes ".txt" <:+ c → fs.entry (c :: d :: start) = some (.file f) →
      q ≠ newfile c :: newdirname d :: start) → fs'.entry q = fs.entry q

/-- A file that holds a part of what has been written to it. -/
def Pending (fs : FileSystem) (stream : Place × List UInt8) : Prop :=
  ∃ k, fs.entry stream.1 = some (.file ⟨stream.2.take k, true, true⟩)

/-- The stream that a text file leads to. -/
def streamOf (fs : FileSystem) (start : Place) (d c : FileName) : Place × List UInt8 :=
  (newfile c :: newdirname d :: start, (fs.contentAt (c :: d :: start)).reverse)

/-- After some of the names: the text files among them have led to streams, and
    besides their files everything is as it was with the new directory. -/
structure Reversing (OPEN_MAX : Nat) (fs : FileSystem) (start : Place) (d : FileName)
    (done : List FileName) (s : Flip) : Prop where
  home : Home d start (d :: start) s
  open_le : s.open_files ≤ 4 + 2 * done.length
  streams_eq : s.streams = (done.filter is_text_file).map (streamOf fs start d)
  pending : ∀ x ∈ s.streams, Pending s.fs x
  other : ∀ q, q ∉ s.streams.map Prod.fst →
    s.fs.entry q = (fs.put (newdirname d :: start) .dir).entry q

section Names

/-- A name of three bytes or more is none of the special ones. -/
theorem proper_of_length {c : FileName} (hslash : slash ∉ c) (hlength : 2 < c.length) :
    Proper c := by
  refine ⟨hslash, ?_, ?_, ?_⟩
  all_goals
    rintro rfl
    exact absurd hlength (by decide)

theorem length_newdirname (d : FileName) : (newdirname d).length = d.length + 9 :=
  List.length_append

theorem length_newfile (c : FileName) : (newfile c).length = 9 + c.length :=
  List.length_append

theorem proper_newdirname {d : FileName} (h : Proper d) : Proper (newdirname d) := by
  refine proper_of_length ?_ (by rw [length_newdirname]; omega)
  rw [newdirname, List.mem_append, not_or]
  exact ⟨h.1, by decide⟩

theorem proper_newfile {c : FileName} (h : slash ∉ c) : Proper (newfile c) := by
  refine proper_of_length ?_ (by rw [length_newfile]; omega)
  rw [newfile, List.mem_append, not_or]
  exact ⟨by decide, h⟩

theorem newfile_injective : Function.Injective newfile := fun _ _ h => List.append_cancel_left h

/-- The two directories are different. -/
theorem newdirname_ne (d : FileName) : newdirname d ≠ d := by
  intro h
  have hlength := length_newdirname d
  rw [h] at hlength
  omega

end Names

section Flush

variable {fs : FileSystem}

theorem entry_flush {x : Place × List UInt8} (h : Pending fs x) :
    (flush fs x).entry = Function.update fs.entry x.1 (some (.file ⟨x.2, true, true⟩)) := by
  rcases h with ⟨k, hentry⟩
  have hcontent : x.2 ++ (x.2.take k).drop x.2.length = x.2 := by
    rw [List.drop_eq_nil_of_le (List.length_take_le' _ _), List.append_nil]
  unfold flush
  simp only [hentry, hcontent]
  exact FileSystem.entry_put (FileSystem.canHold_of_file hentry)

/-- Streams to different files are flushed one after the other. -/
theorem foldl_flush (streams : List (Place × List UInt8)) : ∀ fs : FileSystem,
    (streams.map Prod.fst).Nodup → (∀ x ∈ streams, Pending fs x) →
    (∀ x ∈ streams, (streams.foldl flush fs).entry x.1 = some (.file ⟨x.2, true, true⟩)) ∧
    ∀ q, q ∉ streams.map Prod.fst → (streams.foldl flush fs).entry q = fs.entry q := by
  induction streams with
  | nil => intro fs _ _; exact ⟨fun x hx => absurd hx List.not_mem_nil, fun _ _ => rfl⟩
  | cons x streams ih =>
      intro fs hnodup hpending
      rw [List.map_cons, List.nodup_cons] at hnodup
      have hfirst := entry_flush (hpending x List.mem_cons_self)
      have hrest : ∀ y ∈ streams, Pending (flush fs x) y := by
        intro y hy
        have hne : y.1 ≠ x.1 := fun heq => hnodup.1 (heq ▸ List.mem_map_of_mem hy)
        rcases hpending y (List.mem_cons_of_mem x hy) with ⟨k, hentry⟩
        exact ⟨k, by rw [hfirst, Function.update_of_ne hne, hentry]⟩
      rcases ih (flush fs x) hnodup.2 hrest with ⟨hall, hothers⟩
      rw [List.foldl_cons]
      constructor
      · intro y hy
        rcases List.mem_cons.mp hy with rfl | hy
        · rw [hothers _ hnodup.1, hfirst, Function.update_self]
        · exact hall y hy
      · intro q hq
        rw [List.map_cons, List.mem_cons, not_or] at hq
        rw [hothers q hq.2, hfirst, Function.update_of_ne hq.1]

end Flush

section Loop

variable {OPEN_MAX : Nat} {early : Nat → Nat} {fs : FileSystem} {start : Place} {d : FileName}
variable {done : List FileName} {s : Flip} {c : FileName}

/-- The other directory can be made. -/
theorem Suits.canHold (h : Suits fs start d) : fs.CanHold (newdirname d :: start) := by
  refine ⟨proper_newdirname h.proper, FileSystem.node_eq_dir.mp h.start_dir, ?_⟩
  rw [FileSystem.node, h.new]
  rfl

theorem Suits.mkdir_eq (h : Suits fs start d) :
    fs.mkdir start (newdirname d) = fs.put (newdirname d :: start) .dir :=
  (FileSystem.mkdir_name (proper_newdirname h.proper) h.start_dir h.new).2

theorem Suits.chdir_eq (h : Suits fs start d) : fs.chdir start d = some (d :: start) :=
  FileSystem.chdir_name h.proper (FileSystem.node_eq_dir.mpr h.dir)

/-- What the new directory changes. -/
theorem Suits.entry_eq (h : Suits fs start d) :
    (fs.put (newdirname d :: start) .dir).entry =
      Function.update fs.entry (newdirname d :: start) (some .dir) :=
  FileSystem.entry_put h.canHold

/-- No stream leads to a place outside the new directory. -/
theorem notMem_streams (hr : Reversing OPEN_MAX fs start d done s) {q : Place}
    (hq : ∀ c, q ≠ newfile c :: newdirname d :: start) : q ∉ s.streams.map Prod.fst := by
  rw [hr.streams_eq, List.map_map, List.mem_map]
  rintro ⟨c, _, hc⟩
  exact hq c hc.symm

/-- The files of the directory are as they were. -/
theorem Reversing.entry_old (h : Suits fs start d) (hr : Reversing OPEN_MAX fs start d done s)
    (c : FileName) : s.fs.entry (c :: d :: start) = fs.entry (c :: d :: start) := by
  have hne : ∀ c', c :: d :: start ≠ newfile c' :: newdirname d :: start := by
    intro c' heq
    rw [List.cons.injEq, List.cons.injEq] at heq
    exact newdirname_ne d heq.2.1.symm
  have hdir : c :: d :: start ≠ newdirname d :: start := fun heq =>
    List.cons_ne_self _ _ (List.cons.inj heq).2
  rw [hr.other _ (notMem_streams hr hne), h.entry_eq, Function.update_of_ne hdir]

/-- The new directory is there. -/
theorem Reversing.entry_new (h : Suits fs start d) (hr : Reversing OPEN_MAX fs start d done s) :
    s.fs.entry (newdirname d :: start) = some .dir := by
  have hne : ∀ c, newdirname d :: start ≠ newfile c :: newdirname d :: start := fun c =>
    (List.cons_ne_self _ _).symm
  rw [hr.other _ (notMem_streams hr hne), h.entry_eq, Function.update_self]

/-- No stream leads to a file for which it is not the turn yet. -/
theorem Reversing.next_notMem (hr : Reversing OPEN_MAX fs start d done s) (hc : c ∉ done) :
    newfile c :: newdirname d :: start ∉ s.streams.map Prod.fst := by
  rw [hr.streams_eq, List.map_map, List.mem_map]
  rintro ⟨c', hc', heq⟩
  have hsame : newfile c' = newfile c := (List.cons.inj heq).1
  rw [newfile_injective hsame] at hc'
  exact hc (List.mem_filter.mp hc').1

/-- So it is not there. -/
theorem Reversing.entry_next (h : Suits fs start d) (hr : Reversing OPEN_MAX fs start d done s)
    (hc : c ∉ done) : s.fs.entry (newfile c :: newdirname d :: start) = none := by
  rw [hr.other _ (hr.next_notMem hc), h.entry_eq, Function.update_of_ne (List.cons_ne_self _ _)]
  refine FileSystem.entry_child_eq_none ?_ _
  rw [h.new]
  exact Option.some_ne_none _ |>.symm

/-- A name that is not that of a text file changes nothing that matters. -/
theorem reversing_keep (hr : Reversing OPEN_MAX fs start d done s)
    (htext : is_text_file c = false) {n : Nat} (hn : n ≤ s.open_files + 1) :
    Reversing OPEN_MAX fs start d (done ++ [c]) { s with cwd := start, open_files := n } where
  home := { hr.home with cwd_eq := rfl }
  open_le := by
    have hopen := hr.open_le
    rw [List.length_append, List.length_singleton]
    change n ≤ _
    omega
  streams_eq := by
    rw [List.filter_append, List.filter_singleton, htext, cond_false, List.append_nil]
    exact hr.streams_eq
  pending := hr.pending
  other := hr.other

/-- A text file leads to one more stream. -/
theorem reversing_add (hr : Reversing OPEN_MAX fs start d done s) (hc : c ∉ done)
    (htext : is_text_file c = true) {t : Flip} (hnode : t.fs.node = s.fs.node) (k : Nat)
    (hentry : t.fs.entry = Function.update s.fs.entry (streamOf fs start d c).1
      (some (.file ⟨(streamOf fs start d c).2.take k, true, true⟩)))
    (hcwd : t.cwd = start) (hopen : t.open_files = s.open_files + 2)
    (hstreams : t.streams = s.streams ++ [streamOf fs start d c]) :
    Reversing OPEN_MAX fs start d (done ++ [c]) t where
  home := by
    refine ⟨hcwd, ?_, ?_⟩
    · rw [hnode]
      exact hr.home.start_dir
    · rw [FileSystem.chdir_congr hnode]
      exact hr.home.chdir_eq
  open_le := by
    have hle := hr.open_le
    rw [List.length_append, List.length_singleton]
    omega
  streams_eq := by
    rw [List.filter_append, List.filter_singleton, htext, cond_true, List.map_append,
      ← hr.streams_eq]
    exact hstreams
  pending := by
    intro x hx
    rw [hstreams, List.mem_append, List.mem_singleton] at hx
    rcases hx with hx | rfl
    · have hne : x.1 ≠ (streamOf fs start d c).1 :=
        fun heq => hr.next_notMem hc (List.mem_map.mpr ⟨x, hx, heq⟩)
      rcases hr.pending x hx with ⟨k', hold⟩
      exact ⟨k', by rw [hentry, Function.update_of_ne hne, hold]⟩
    · exact ⟨k, by rw [hentry, Function.update_self]⟩
  other := by
    intro q hq
    rw [hstreams, List.map_append, List.mem_append, not_or] at hq
    have hne : q ≠ (streamOf fs start d c).1 := fun heq => hq.2 (List.mem_singleton.mpr heq)
    rw [hentry, Function.update_of_ne hne, hr.other q hq.1]

/-- A text file of the directory is opened, and its bytes are read. -/
theorem Reversing.openRead_eq (h : Suits fs start d) (hr : Reversing OPEN_MAX fs start d done s)
    {f : File} (hentry : fs.entry (c :: d :: start) = some (.file f)) (hread : f.readable = true) :
    s.fs.openRead (d :: start) c = some f.content := by
  have hold := (hr.entry_old h c).trans hentry
  have hproper : Proper c :=
    (fs.parent c _ (by rw [hentry]; exact Option.some_ne_none _)).1
  have hlookup : s.fs.lookup (d :: start) c = some (c :: d :: start) := by
    refine FileSystem.lookup_name hproper fun target hlink => ?_
    rw [FileSystem.node, hold] at hlink
    cases hlink
  unfold FileSystem.openRead
  rw [hlookup, Option.bind_some, hold]
  exact if_pos hread

/-- The program changes to the other directory. -/
theorem Reversing.go_eq (h : Suits fs start d) (hr : Reversing OPEN_MAX fs start d done s) :
    go s.fs (d :: start).tail (newdirname d) = newdirname d :: start :=
  go_of_chdir (FileSystem.chdir_name (proper_newdirname h.proper)
    (FileSystem.node_eq_dir.mpr (hr.entry_new h)))

/-- The new file can be opened there. -/
theorem Reversing.openWrite_eq (h : Suits fs start d) (hr : Reversing OPEN_MAX fs start d done s)
    (hc : c ∉ done) (hslash : slash ∉ c) :
    s.fs.openWrite (go s.fs (d :: start).tail (newdirname d)) (newfile c) =
      some (newfile c :: newdirname d :: start) := by
  have hgo := hr.go_eq h
  have hnone := hr.entry_next h hc
  have hlookup : s.fs.lookup (newdirname d :: start) (newfile c) =
      some (newfile c :: newdirname d :: start) := by
    refine FileSystem.lookup_name (proper_newfile hslash) fun target hlink => ?_
    rw [FileSystem.node, hnone] at hlink
    cases hlink
  rw [hgo, FileSystem.openWrite, hlookup, Option.filter_some]
  simp only [hnone, if_true]

variable (early) in
/-- One iteration, for a name that has not been read yet. -/
theorem reversing_step (h : Suits fs start d) (hr : Reversing OPEN_MAX fs start d done s)
    (hc : c ∉ done)
    (hlisted : c = bytes "." ∨ c = bytes ".." ∨ fs.entry (c :: d :: start) ≠ none)
    (hmax : 4 + 2 * (done.length + 1) ≤ OPEN_MAX) :
    ∃ t, flipStep OPEN_MAX early d s c = some t ∧
      Reversing OPEN_MAX fs start d (done ++ [c]) t := by
  have hopen := hr.open_le
  by_cases hdots : c = bytes "." ∨ c = bytes ".."
  · have htext : is_text_file c = false := by
      rcases hdots with rfl | rfl <;> decide
    have hsame : { s with cwd := start, open_files := s.open_files } = s := by
      rw [← hr.home.cwd_eq]
    have hkeep := reversing_keep hr htext (Nat.le_succ s.open_files)
    rw [hsame] at hkeep
    exact ⟨s, if_pos hdots, hkeep⟩
  rcases Option.ne_none_iff_exists'.mp ((or_assoc.mpr hlisted).resolve_left hdots) with ⟨e, he⟩
  rcases h.files c e he with ⟨f, rfl, hread, hfits⟩
  have hcontent := hr.openRead_eq h he hread
  by_cases htext : bytes ".txt" <:+ c
  · have hslash : slash ∉ c := (fs.parent c _ (by rw [he]; exact Option.some_ne_none _)).1.1
    have hopened : Opened OPEN_MAX (d :: start) s c :=
      ⟨by omega, by rw [hcontent]; rfl, htext⟩
    have hstep : flipStep OPEN_MAX early d s c = reverseFile OPEN_MAX early d s c f.content :=
      flipStep_text hr.home hopened hcontent
    have hwrite := hr.openWrite_eq h hc hslash
    have hout : s.outfile OPEN_MAX d c = some (newfile c :: newdirname d :: start) :=
      (outfile_eq_some_iff hr.home).mpr ⟨by omega, hwrite⟩
    rcases reverseFile_eq OPEN_MAX early hr.home (hfits htext).2 (hfits htext).1 with
      ⟨content, hreverse⟩
    rw [hreverse] at hstep
    simp only [hout] at hstep
    have hstream : streamOf fs start d c =
        (newfile c :: newdirname d :: start, f.content.reverse) := by
      rw [streamOf, FileSystem.contentAt, he]
    have hhold : s.fs.CanHold (newfile c :: newdirname d :: start) :=
      FileSystem.canHold_of_openWrite (node_go (FileSystem.node_tail hr.home.node_dir)) hwrite
    have hnext := FileSystem.entry_written_new hhold (hr.entry_next h hc)
      (f.content.reverse.take (early f.content.length))
    refine ⟨_, hstep, reversing_add hr hc ((is_text_file_iff c).mpr htext) (node_flipStep hstep)
      (early f.content.length) ?_ ?_ rfl ?_⟩
    · rw [hstream]
      exact hnext
    · change (s.target d).tail = start
      rw [hr.home.target, hr.go_eq h, List.tail_cons]
    · rw [hstream]
  · have hother : ¬ Opened OPEN_MAX (d :: start) s c := fun hopened => htext hopened.2.2
    rcases flipStep_other hr.home hdots hother with ⟨n, hn, hstep⟩
    refine ⟨_, hstep, reversing_keep hr ?_ hn⟩
    rw [Bool.eq_false_iff]
    exact fun h => htext ((is_text_file_iff c).mp h)

variable (early) in
/-- All the names that `readdir` returns. -/
theorem reversing_run (h : Suits fs start d) (names : List FileName) : ∀ (done : List FileName)
    (s : Flip), Reversing OPEN_MAX fs start d done s → (done ++ names).Nodup →
    (∀ c ∈ names, c = bytes "." ∨ c = bytes ".." ∨ fs.entry (c :: d :: start) ≠ none) →
    4 + 2 * (done ++ names).length ≤ OPEN_MAX →
    ∃ t, run (flipStep OPEN_MAX early d) s names = some t ∧
      Reversing OPEN_MAX fs start d (done ++ names) t := by
  induction names with
  | nil =>
      intro done s hr _ _ _
      rw [List.append_nil]
      exact ⟨s, rfl, hr⟩
  | cons c names ih =>
      intro done s hr hnodup hlisted hmax
      have hc : c ∉ done := fun hmem =>
        (List.nodup_append.mp hnodup).2.2 c hmem c List.mem_cons_self rfl
      have hlength : (done ++ c :: names).length = done.length + (names.length + 1) := by
        rw [List.length_append, List.length_cons]
      rcases reversing_step early h hr hc (hlisted c List.mem_cons_self) (by omega) with
        ⟨t, hstep, ht⟩
      rw [List.append_cons] at hnodup hmax ⊢
      rcases ih (done ++ [c]) t ht hnodup (fun c' hc' => hlisted c' (List.mem_cons_of_mem c hc'))
        hmax with ⟨u, hrun, hu⟩
      exact ⟨u, run_cons_eq_some.mpr ⟨t, hstep, hrun⟩, hu⟩

/-- The program comes to the loop. -/
theorem reversing_enter (h : Suits fs start d) (hmax : 4 ≤ OPEN_MAX) (content : Nat → UInt8) :
    ∃ s, enter OPEN_MAX d fs start content = some s ∧ Reversing OPEN_MAX fs start d [] s := by
  have hpath : d.length < PATH_SIZE ∧ 3 < OPEN_MAX ∧ (fs.chdir start d).isSome := by
    refine ⟨h.length_lt, hmax, ?_⟩
    rw [h.chdir_eq]
    rfl
  have henter : enter OPEN_MAX d fs start content = some
      { fs := fs.mkdir start (newdirname d)
        cwd := start
        open_files := 4
        content := content
        streams := [] } := if_pos hpath
  refine ⟨_, henter, home_enter h.start_dir h.chdir_eq henter, le_rfl, rfl, ?_, ?_⟩
  · intro x hx
    cases hx
  · intro q _
    rw [h.mkdir_eq]

end Loop

section Program

variable {OPEN_MAX : Nat} {fs fs' : FileSystem} {start : Place} {d : FileName}
variable {names : List FileName}

/-- The streams after all the names are flushed to the files of `Reversed`. -/
theorem reversed_of_reversing (h : Suits fs start d) (hnames : fs.Lists (d :: start) names)
    {t : Flip} (ht : Reversing OPEN_MAX fs start d names t) :
    Reversed fs (t.streams.foldl flush t.fs) start d := by
  have hnodup : (t.streams.map Prod.fst).Nodup := by
    rw [ht.streams_eq, List.map_map]
    refine (hnames.1.filter _).map fun c c' heq => ?_
    exact newfile_injective (List.cons.inj heq).1
  rcases foldl_flush t.streams t.fs hnodup ht.pending with ⟨hall, hothers⟩
  refine ⟨?_, fun c f htext hentry => ?_, fun q hq hnot => ?_⟩
  · rw [hothers _ (notMem_streams ht fun c => (List.cons_ne_self _ _).symm), ht.entry_new h]
  · have hc : c ∈ names.filter is_text_file := by
      refine List.mem_filter.mpr ⟨(hnames.2 c).mpr (Or.inr (Or.inr ?_)), (is_text_file_iff c).mpr htext⟩
      rw [hentry]
      exact Option.some_ne_none _
    have hstream : streamOf fs start d c =
        (newfile c :: newdirname d :: start, f.content.reverse) := by
      rw [streamOf, FileSystem.contentAt, hentry]
    have hmem : streamOf fs start d c ∈ t.streams := by
      rw [ht.streams_eq]
      exact List.mem_map_of_mem hc
    have hfile := hall _ hmem
    rw [hstream] at hfile
    exact hfile
  · have hout : q ∉ t.streams.map Prod.fst := by
      rw [ht.streams_eq, List.map_map, List.mem_map]
      rintro ⟨c, hc, rfl⟩
      rcases List.mem_filter.mp hc with ⟨hc, htext⟩
      have hname := (is_text_file_iff c).mp htext
      rcases (hnames.2 c).mp hc with rfl | rfl | hsome
      · exact absurd hname (by decide)
      · exact absurd hname (by decide)
      · rcases Option.ne_none_iff_exists'.mp hsome with ⟨e, he⟩
        rcases h.files c e he with ⟨f, rfl, _⟩
        exact hnot c f hname he rfl
    rw [hothers q hout, ht.other q hout, h.entry_eq, Function.update_of_ne hq]

/-- The program reverses a directory. -/
theorem flipper_reversed (early : Nat → Nat) (h : Suits fs start d)
    (hnames : fs.Lists (d :: start) names) (hmax : 4 + 2 * names.length ≤ OPEN_MAX)
    (content : Nat → UInt8) :
    ∃ fs', flipper OPEN_MAX early d fs start content names = some fs' ∧
      Reversed fs fs' start d := by
  rcases reversing_enter h (Nat.le_trans (Nat.le_add_right 4 _) hmax) content with ⟨s, henter, hs⟩
  rcases reversing_run early h names [] s hs hnames.1
    (fun c hc => (hnames.2 c).mp hc) hmax with ⟨t, hrun, ht⟩
  refine ⟨t.streams.foldl flush t.fs, ?_, reversed_of_reversing h hnames ht⟩
  rw [flipper, henter, Option.bind_some, hrun, Option.map_some]

/-- Whatever is in the other directory comes from a text file. -/
theorem Reversed.entry_new (hr : Reversed fs fs' start d)
    (hnew : fs.entry (newdirname d :: start) = none) (c : FileName) (e : Entry) :
    fs'.entry (c :: newdirname d :: start) = some e ↔ ∃ c₀ f, bytes ".txt" <:+ c₀ ∧
      fs.entry (c₀ :: d :: start) = some (.file f) ∧ c = newfile c₀ ∧
      e = .file ⟨f.content.reverse, true, true⟩ := by
  constructor
  · intro he
    by_contra hnone
    have hold := hr.other (c :: newdirname d :: start) (List.cons_ne_self _ _) fun c₀ f htext hentry heq => by
      have hfile := hr.text c₀ f htext hentry
      rw [← heq, he, Option.some.injEq] at hfile
      exact hnone ⟨c₀, f, htext, hentry, (List.cons.inj heq).1, hfile⟩
    have habsent : fs.entry (c :: newdirname d :: start) = none := by
      refine FileSystem.entry_child_eq_none ?_ c
      rw [hnew]
      exact (Option.some_ne_none _).symm
    rw [he, habsent] at hold
    cases hold
  · rintro ⟨c₀, f, htext, hentry, rfl, rfl⟩
    exact hr.text c₀ f htext hentry

/-- The other directory can be reversed in turn, if its name and those of its
    files are not too long. -/
theorem Reversed.suits (hr : Reversed fs fs' start d) (h : Suits fs start d)
    (hlength : (newdirname d).length < PATH_SIZE)
    (hnew : fs.entry (newdirname (newdirname d) :: start) = none)
    (hnames : ∀ c f, bytes ".txt" <:+ c → fs.entry (c :: d :: start) = some (.file f) →
      (newfile (newfile c)).length < NEWFILE_SIZE) : Suits fs' start (newdirname d) where
  start_dir := by
    have hstart := hr.other start (List.cons_ne_self _ _).symm fun c f _ _ heq => by
      have hlength := congrArg List.length heq
      simp only [List.length_cons] at hlength
      omega
    rw [FileSystem.node_eq_dir, hstart]
    exact FileSystem.node_eq_dir.mp h.start_dir
  proper := proper_newdirname h.proper
  length_lt := hlength
  dir := hr.dir
  new := by
    rw [hr.other _ (fun heq => newdirname_ne _ (List.cons.inj heq).1) fun c f _ _ heq =>
      List.cons_ne_self _ _ (List.cons.inj heq).2.symm]
    exact hnew
  files := by
    intro c e he
    rcases (hr.entry_new h.new c e).mp he with ⟨c₀, f, htext, hentry, rfl, rfl⟩
    rcases h.files c₀ _ hentry with ⟨f', hf, _, hfits⟩
    cases hf
    refine ⟨_, rfl, rfl, fun _ => ⟨hnames c₀ f htext hentry, ?_⟩⟩
    rw [List.length_reverse]
    exact (hfits htext).2

end Program

/-- Reversing a directory of files and then the new one gives, in the newest, for
    each text file one with the same bytes, and no other files. -/
theorem flipper_involution (OPEN_MAX : Nat) (early : Nat → Nat) (fs : FileSystem) (start : Place)
    (d : FileName) (names : List FileName) (content : Nat → UInt8)
    (hstart : fs.node start = some .dir) (hproper : Proper d) (hlength : d.length ≤ 20)
    (hdir : fs.entry (d :: start) = some .dir)
    (hfiles : ∀ c e, fs.entry (c :: d :: start) = some e → ∃ f, e = .file f ∧
      f.readable = true ∧ f.content.length < 1000000 ∧ (bytes ".txt" <:+ c → c.length ≤ 21))
    (hnew : fs.entry (newdirname d :: start) = none)
    (hnewest : fs.entry (newdirname (newdirname d) :: start) = none)
    (hnames : fs.Lists (d :: start) names) (hmax : 4 + 2 * names.length ≤ OPEN_MAX) :
    ∃ fs', flipper OPEN_MAX early d fs start content names = some fs' ∧
      ∀ names' content', fs'.Lists (newdirname d :: start) names' →
        4 + 2 * names'.length ≤ OPEN_MAX →
        ∃ fs'', flipper OPEN_MAX early (newdirname d) fs' start content' names' = some fs'' ∧
          ∀ c e, fs''.entry (c :: newdirname (newdirname d) :: start) = some e ↔
            ∃ c₀ f, bytes ".txt" <:+ c₀ ∧ fs.entry (c₀ :: d :: start) = some (.file f) ∧
              c = newfile (newfile c₀) ∧ e = .file ⟨f.content, true, true⟩ := by
  have hd : d.length < PATH_SIZE := Nat.lt_of_le_of_lt hlength (by decide)
  have hbounds : ∀ c f, bytes ".txt" <:+ c → fs.entry (c :: d :: start) = some (.file f) →
      (newfile (newfile c)).length < NEWFILE_SIZE := by
    intro c f htext hentry
    rcases hfiles c _ hentry with ⟨f', _, _, _, hshort⟩
    have hc := hshort htext
    rw [length_newfile, length_newfile]
    change _ < 40
    omega
  have h : Suits fs start d := by
    refine ⟨hstart, hproper, hd, hdir, hnew, fun c e he => ?_⟩
    rcases hfiles c e he with ⟨f, rfl, hread, hsize, _⟩
    refine ⟨f, rfl, hread, fun htext => ⟨?_, hsize.le⟩⟩
    have htwice := hbounds c f htext he
    rw [length_newfile] at htwice
    omega
  rcases flipper_reversed early h hnames hmax content with ⟨fs', hflipper, hr⟩
  refine ⟨fs', hflipper, fun names' content' hnames' hmax' => ?_⟩
  have hlength' : (newdirname d).length < PATH_SIZE := by
    rw [length_newdirname]
    change _ < 30
    omega
  have h' := hr.suits h hlength' hnewest hbounds
  rcases flipper_reversed early h' hnames' hmax' content' with ⟨fs'', hflipper', hr'⟩
  refine ⟨fs'', hflipper', fun c e => ?_⟩
  rw [hr'.entry_new h'.new]
  constructor
  · rintro ⟨c₁, f₁, _, hentry, rfl, rfl⟩
    -- The file of the other directory comes from one of the first.
    rcases (hr.entry_new hnew c₁ _).mp hentry with ⟨c₀, f, htext, hold, rfl, hf⟩
    cases hf
    exact ⟨c₀, f, htext, hold, rfl, by rw [List.reverse_reverse]⟩
  · rintro ⟨c₀, f, htext, hold, rfl, rfl⟩
    refine ⟨newfile c₀, _, ?_, hr.text c₀ f htext hold, rfl, by rw [List.reverse_reverse]⟩
    rw [← is_text_file_iff, is_text_file_newfile, is_text_file_iff]
    exact htext

section Box

/-- A directory with one text file. -/
def box : FileSystem :=
  (FileSystem.empty.put [bytes "a"] .dir).put [bytes "t.txt", bytes "a"]
    (.file ⟨bytes "xy", true, true⟩)

theorem entry_box (c : FileName) : box.entry [c, bytes "a"] =
    if c = bytes "t.txt" then some (.file ⟨bytes "xy", true, true⟩) else none := by
  have hdir : FileSystem.empty.CanHold [bytes "a"] := by decide +kernel
  have hfile : (FileSystem.empty.put [bytes "a"] .dir).CanHold [bytes "t.txt", bytes "a"] := by
    decide +kernel
  rw [box, FileSystem.entry_put hfile, FileSystem.entry_put hdir]
  by_cases hc : c = bytes "t.txt"
  · rw [if_pos hc, hc, Function.update_self]
  · have hne : [c, bytes "a"] ≠ [bytes "t.txt", bytes "a"] := fun h => hc (List.cons.inj h).1
    have hne' : [c, bytes "a"] ≠ [bytes "a"] := List.cons_ne_self _ _
    rw [if_neg hc, Function.update_of_ne hne, Function.update_of_ne hne']
    rfl

/-- Its bytes are there again after reversing it twice. -/
theorem flipper_involution_box :
    ∃ fs', flipper 20 id (bytes "a") box [] (fun _ => 0)
        [bytes "..", bytes "t.txt", bytes "."] = some fs' ∧
      ∀ names' content', fs'.Lists [bytes "a_reversed"] names' → 4 + 2 * names'.length ≤ 20 →
        ∃ fs'', flipper 20 id (bytes "a_reversed") fs' [] content' names' = some fs'' ∧
          fs''.entry [bytes "reversed_reversed_t.txt", bytes "a_reversed_reversed"] =
            some (.file ⟨bytes "xy", true, true⟩) := by
  have hfiles : ∀ c e, box.entry [c, bytes "a"] = some e → ∃ f, e = .file f ∧
      f.readable = true ∧ f.content.length < 1000000 ∧ (bytes ".txt" <:+ c → c.length ≤ 21) := by
    intro c e he
    rw [entry_box, Option.ite_none_right_eq_some, Option.some.injEq] at he
    rcases he with ⟨rfl, rfl⟩
    exact ⟨_, rfl, rfl, by decide, fun _ => by decide⟩
  have hnames : box.Lists [bytes "a"] [bytes "..", bytes "t.txt", bytes "."] := by
    refine ⟨by decide, fun c => ?_⟩
    have hentry : box.entry [c, bytes "a"] ≠ none ↔ c = bytes "t.txt" := by
      rw [entry_box]
      by_cases hc : c = bytes "t.txt" <;> simp [hc]
    rw [hentry]
    simp only [List.mem_cons, List.not_mem_nil, or_false]
    tauto
  rcases flipper_involution 20 id box [] (bytes "a") [bytes "..", bytes "t.txt", bytes "."]
    (fun _ => 0) (by decide +kernel) (by decide) (by decide) (by decide +kernel) hfiles
    (by decide +kernel) (by decide +kernel) hnames (by decide) with ⟨fs', hflipper, hagain⟩
  refine ⟨fs', hflipper, fun names' content' hnames' hmax' => ?_⟩
  rcases hagain names' content' hnames' hmax' with ⟨fs'', hflipper', hentry⟩
  refine ⟨fs'', hflipper', (hentry (bytes "reversed_reversed_t.txt") _).mpr ?_⟩
  refine ⟨bytes "t.txt", ⟨bytes "xy", true, true⟩, by decide, ?_, by decide, rfl⟩
  rw [entry_box, if_pos rfl]

end Box

end Lab2

end OsLabs
