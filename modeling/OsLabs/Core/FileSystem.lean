import OsLabs.Core.Memory
import Mathlib.Logic.Function.Basic

/-!
# A File System

Directories, files and symbolic links, and the calls that resolve a path. An
entry is known by its place, the names on the way to it with the innermost one
first, so that `..` is the tail and the root is its own parent. Permissions are
those of files; a directory can always be searched and written.

A path is a list of components between slashes. Resolving it goes from
directory to directory, and where a name is a link it goes on with what the
link says, so often and no more. What it sees of an entry is its `Node`, a
directory or a link; a file and a name that is not there look alike, and may
only come last. So a file that is created or written changes nothing about where
other paths lead, which is what a program relies on that changes its directory
while it writes.

## Main definitions

* `FileSystem`: Entries in directories that exist, under names that can stand
  there.
* `resolve`: Where the components of a path lead.
* `Leads`: The same as a relation, with one rule for each kind of component.
* `lookup`, `chdir`, `mkdir`, `openRead`, `openWrite`: The calls.
* `Lists`: What `readdir` returns.
* `put`: An entry is made or replaced, where that can be done.

## Theorems

* `node_put`: A new file is not seen on the way.
* `canHold_of_lookup`: What a path leads to is a directory or a place for a file.
* `resolve_of_leads`, `leads_of_resolve`: What the resolution finds, step by step.
* `resolve_append`: Beyond a directory a path is resolved from there.
* `lookup_name`, `chdir_name`, `chdir_parent`: Paths of one component.
* `lookup_child`: A path made longer by a name.
-/

namespace OsLabs

abbrev FileName := List UInt8

/-- The names on the way to an entry, the innermost first. -/
abbrev Place := List FileName

structure File where
  content : List UInt8
  readable : Bool
  writable : Bool
  deriving DecidableEq

inductive Entry
  | file (f : File)
  | dir
  | link (target : List UInt8)
  deriving DecidableEq

/-- What the resolution of a path sees of an entry. -/
inductive Node
  | dir
  | link (target : List UInt8)
  deriving DecidableEq

def Entry.node : Entry → Option Node
  | .file _ => none
  | .dir => some .dir
  | .link target => some (.link target)

def slash : UInt8 := 47

/-- A name that an entry of a directory can have. -/
def Proper (c : FileName) : Prop :=
  slash ∉ c ∧ c ≠ [] ∧ c ≠ bytes "." ∧ c ≠ bytes ".."

instance decidableProper (c : FileName) : Decidable (Proper c) :=
  inferInstanceAs (Decidable (_ ∧ _ ∧ _ ∧ _))

structure FileSystem where
  entry : Place → Option Entry
  root : entry [] = some .dir
  parent : ∀ c p, entry (c :: p) ≠ none → Proper c ∧ entry p = some .dir

/-- Where a path begins. -/
def base (path : List UInt8) (cwd : Place) : Place := if path.head? = some slash then [] else cwd

/-- Where components lead from a directory on; `follow` goes on after a link. -/
def resolveWith (node : Place → Option Node) (follow : Place → List FileName → Option Place) :
    Place → List FileName → Option Place
  | p, [] => some p
  | p, c :: cs =>
    if c = [] ∨ c = bytes "." then resolveWith node follow p cs
    else if c = bytes ".." then resolveWith node follow p.tail cs
    else match node (c :: p) with
      | some .dir => resolveWith node follow (c :: p) cs
      | some (.link target) => follow (base target p) (target.splitOn slash ++ cs)
      | none => if cs = [] then some (c :: p) else none

/-- Where components lead when so many links are followed and no more. -/
def resolve (node : Place → Option Node) : Nat → Place → List FileName → Option Place
  | 0 => resolveWith node fun _ _ => none
  | links + 1 => resolveWith node (resolve node links)

/-- The links that are followed in one path. -/
def MAXSYMLINKS : Nat := 40

namespace FileSystem

def node (fs : FileSystem) (p : Place) : Option Node := (fs.entry p).bind Entry.node

/-- The place a path leads to, whether there is anything or not. -/
def lookup (fs : FileSystem) (cwd : Place) (path : List UInt8) : Option Place :=
  if path = [] then none
  else resolve fs.node MAXSYMLINKS (base path cwd) (path.splitOn slash)

/-- The directory a path leads to. -/
def chdir (fs : FileSystem) (cwd : Place) (path : List UInt8) : Option Place :=
  (fs.lookup cwd path).filter fun p => fs.node p = some .dir

/-- The bytes of a file. -/
def contentAt (fs : FileSystem) (q : Place) : List UInt8 :=
  match fs.entry q with
  | some (.file f) => f.content
  | _ => []

/-- What `readdir` returns for a directory, in some order. -/
def Lists (fs : FileSystem) (p : Place) (names : List FileName) : Prop :=
  names.Nodup ∧ ∀ c, c ∈ names ↔ c = bytes "." ∨ c = bytes ".." ∨ fs.entry (c :: p) ≠ none

/-- There can be a file: the directory is there, and neither a directory nor a
    link has the name. -/
def CanHold (fs : FileSystem) : Place → Prop
  | [] => False
  | c :: p => Proper c ∧ fs.entry p = some .dir ∧ fs.node (c :: p) = none

instance decidableCanHold (fs : FileSystem) : ∀ q : Place, Decidable (fs.CanHold q)
  | [] => isFalse id
  | _ :: _ => inferInstanceAs (Decidable (_ ∧ _ ∧ _))

/-- Nothing but the root. -/
def empty : FileSystem where
  entry p := if p = [] then some .dir else none
  root := rfl
  parent c p h := absurd (if_neg (List.cons_ne_nil c p)) h

theorem entry_of_canHold {fs : FileSystem} {c : FileName} {p : Place} (h : fs.CanHold (c :: p))
    (p' : Place) (hdir : fs.entry p' = some .dir) : p' ≠ c :: p := by
  rintro rfl
  have hnode := h.2.2
  rw [node, hdir] at hnode
  cases hnode

/-- An entry in place of a file or of nothing. -/
def put (fs : FileSystem) (q : Place) (e : Entry) : FileSystem :=
  if h : fs.CanHold q then
    { entry := Function.update fs.entry q (some e)
      root := by
        cases q with
        | nil => exact h.elim
        | cons c p =>
            rw [Function.update_of_ne (List.cons_ne_nil c p).symm]
            exact fs.root
      parent := by
        intro c' p' hentry
        cases q with
        | nil => exact h.elim
        | cons c p =>
            have hold : Proper c' ∧ fs.entry p' = some .dir := by
              by_cases heq : c' :: p' = c :: p
              · rw [List.cons.injEq] at heq
                rw [heq.1, heq.2]
                exact ⟨h.1, h.2.1⟩
              · rw [Function.update_of_ne heq] at hentry
                exact fs.parent c' p' hentry
            rw [Function.update_of_ne (entry_of_canHold h p' hold.2)]
            exact hold }
  else fs

/-- `mkdir` of a path that does not end in a slash. A link of that name is not
    followed. -/
def mkdir (fs : FileSystem) (cwd : Place) (path : List UInt8) : FileSystem :=
  let components := path.splitOn slash
  match resolve fs.node MAXSYMLINKS (base path cwd) components.dropLast with
  | none => fs
  | some p =>
    let q := components.getLastD [] :: p
    if fs.entry q = none then fs.put q .dir else fs

/-- What can be read after `fopen` with `"r"`, which opens a directory too. -/
def openRead (fs : FileSystem) (cwd : Place) (path : List UInt8) : Option (List UInt8) :=
  match (fs.lookup cwd path).bind fs.entry with
  | some (.file f) => if f.readable then some f.content else none
  | some .dir => some []
  | _ => none

/-- The place that `fopen` with `"w"` opens. -/
def openWrite (fs : FileSystem) (cwd : Place) (path : List UInt8) : Option Place :=
  (fs.lookup cwd path).filter fun q =>
    match fs.entry q with
    | none => true
    | some (.file f) => f.writable
    | _ => false

/-- The file that is there once it is opened for writing, with what has been
    written to it. -/
def written (fs : FileSystem) (q : Place) (content : List UInt8) : FileSystem :=
  match fs.entry q with
  | some (.file f) => fs.put q (.file { f with content := content })
  | _ => fs.put q (.file { content := content, readable := true, writable := true })

end FileSystem

section Resolution

/-- The components of a path have no slash in them. -/
theorem slash_notMem_of_mem_splitOn (path : List UInt8) :
    ∀ c ∈ path.splitOn slash, slash ∉ c := by
  induction path with
  | nil =>
      intro c hc
      rw [List.splitOn_nil, List.mem_singleton] at hc
      rw [hc]
      exact List.not_mem_nil
  | cons b path ih =>
      intro c hc
      rw [List.splitOn_cons_eq_if_modifyHead] at hc
      split_ifs at hc with hb
      · rcases List.mem_cons.mp hc with rfl | hc
        · exact List.not_mem_nil
        · exact ih c hc
      · rcases List.exists_cons_of_ne_nil (List.splitOn_ne_nil slash path) with ⟨w, ws, hsplit⟩
        rw [hsplit] at hc ih
        rcases List.mem_cons.mp hc with rfl | hc
        · rw [List.mem_cons, not_or]
          exact ⟨fun h => hb (beq_iff_eq.mpr h.symm), ih w List.mem_cons_self⟩
        · exact ih c (List.mem_cons_of_mem w hc)

theorem splitOn_of_proper {c : FileName} (hc : Proper c) : c.splitOn slash = [c] :=
  List.splitOn_eq_singleton hc.1

theorem base_of_proper {c : FileName} (hc : Proper c) (p : Place) : base c p = p := by
  rw [base, if_neg]
  intro hhead
  exact hc.1 (List.mem_of_head? hhead)

variable {node : Place → Option Node} {c : FileName} {p q : Place} {cs : List FileName}

/-- A component that is a name. -/
def IsName (c : FileName) : Prop := ¬ (c = [] ∨ c = bytes ".") ∧ c ≠ bytes ".."

theorem Proper.isName (hc : Proper c) : IsName c :=
  ⟨fun h => h.elim hc.2.1 hc.2.2.1, hc.2.2.2⟩

theorem resolve_nil (links : Nat) (p : Place) : resolve node links p [] = some p := by
  cases links <;> rfl

theorem resolve_dot (hdot : c = [] ∨ c = bytes ".") (links : Nat) (p : Place)
    (cs : List FileName) : resolve node links p (c :: cs) = resolve node links p cs := by
  cases links <;> exact if_pos hdot

theorem resolve_parent (links : Nat) (p : Place) (cs : List FileName) :
    resolve node links p (bytes ".." :: cs) = resolve node links p.tail cs := by
  cases links <;> rfl

/-- A name is looked up in the directory the resolution has come to. -/
theorem resolve_name (hc : IsName c) (links : Nat) (p : Place) (cs : List FileName) :
    resolve node links p (c :: cs) =
      match node (c :: p) with
      | some .dir => resolve node links (c :: p) cs
      | some (.link target) =>
        match links with
        | 0 => none
        | links + 1 => resolve node links (base target p) (target.splitOn slash ++ cs)
      | none => if cs = [] then some (c :: p) else none := by
  cases links <;> exact (if_neg hc.1).trans (if_neg hc.2)

theorem resolve_dir (hc : IsName c) (hnode : node (c :: p) = some .dir) (links : Nat)
    (cs : List FileName) :
    resolve node links p (c :: cs) = resolve node links (c :: p) cs := by
  rw [resolve_name hc, hnode]

theorem resolve_link (hc : IsName c) {target : List UInt8}
    (hnode : node (c :: p) = some (.link target)) (links : Nat) (cs : List FileName) :
    resolve node (links + 1) p (c :: cs) =
      resolve node links (base target p) (target.splitOn slash ++ cs) := by
  rw [resolve_name hc, hnode]

/-- The last component of a path, when it is not the name of a link. -/
theorem resolve_last (hc : IsName c) (hlink : ∀ target, node (c :: p) ≠ some (.link target))
    (links : Nat) : resolve node links p [c] = some (c :: p) := by
  rw [resolve_name hc]
  cases hnode : node (c :: p) with
  | none => rfl
  | some n =>
      cases n with
      | dir => exact resolve_nil links _
      | link target => exact absurd hnode (hlink target)

/-- The ways in which components lead to a place when so many links may be
    followed. -/
inductive Leads (node : Place → Option Node) : Nat → Place → List FileName → Place → Prop
  | here (links : Nat) (p : Place) : Leads node links p [] p
  | dot {links : Nat} {p q : Place} {c : FileName} {cs : List FileName}
      (hdot : c = [] ∨ c = bytes ".") (h : Leads node links p cs q) :
      Leads node links p (c :: cs) q
  | parent {links : Nat} {p q : Place} {cs : List FileName} (h : Leads node links p.tail cs q) :
      Leads node links p (bytes ".." :: cs) q
  | dir {links : Nat} {p q : Place} {c : FileName} {cs : List FileName} (hc : IsName c)
      (hnode : node (c :: p) = some .dir) (h : Leads node links (c :: p) cs q) :
      Leads node links p (c :: cs) q
  | link {links : Nat} {p q : Place} {c : FileName} {cs : List FileName} (hc : IsName c)
      {target : List UInt8} (hnode : node (c :: p) = some (.link target))
      (h : Leads node links (base target p) (target.splitOn slash ++ cs) q) :
      Leads node (links + 1) p (c :: cs) q
  | last (links : Nat) {p : Place} {c : FileName} (hc : IsName c) (hnode : node (c :: p) = none) :
      Leads node links p [c] (c :: p)

theorem resolve_of_leads {links : Nat} (h : Leads node links p cs q) :
    resolve node links p cs = some q := by
  induction h with
  | here links p => exact resolve_nil links p
  | dot hdot _ ih => rw [resolve_dot hdot, ih]
  | parent _ ih => rw [resolve_parent, ih]
  | dir hc hnode _ ih => rw [resolve_dir hc hnode, ih]
  | link hc hnode _ ih => rw [resolve_link hc hnode, ih]
  | last links hc hnode =>
      refine resolve_last hc (fun target hlink => ?_) links
      rw [hnode] at hlink
      cases hlink

/-- What the resolution finds, one of the ways leads to. The induction is on the
    links that are left and then on the components. -/
theorem leads_of_resolve (links : Nat) : ∀ (cs : List FileName) (p q : Place),
    resolve node links p cs = some q → Leads node links p cs q := by
  induction links using Nat.strong_induction_on with
  | _ links ihlinks =>
      intro cs
      induction cs with
      | nil =>
          intro p q h
          rw [resolve_nil, Option.some.injEq] at h
          rw [h]
          exact .here links q
      | cons c cs ih =>
          intro p q h
          by_cases hdot : c = [] ∨ c = bytes "."
          · rw [resolve_dot hdot] at h
            exact .dot hdot (ih p q h)
          by_cases hparent : c = bytes ".."
          · rw [hparent, resolve_parent] at h
            rw [hparent]
            exact .parent (ih p.tail q h)
          have hc : IsName c := ⟨hdot, hparent⟩
          rw [resolve_name hc] at h
          cases hnode : node (c :: p) with
          | none =>
              simp only [hnode, Option.ite_none_right_eq_some, Option.some.injEq] at h
              rw [h.1, ← h.2]
              exact .last links hc hnode
          | some n =>
              cases n with
              | dir =>
                  simp only [hnode] at h
                  exact .dir hc hnode (ih (c :: p) q h)
              | link target =>
                  simp only [hnode] at h
                  cases links with
                  | zero => cases h
                  | succ links => exact .link hc hnode (ihlinks links (Nat.lt_succ_self _) _ _ q h)

/-- A place that is not a directory is not the end of a name. -/
theorem not_last (hnode : node (c :: p) = none) : node (c :: p) ≠ some .dir := by
  rw [hnode]
  exact (Option.some_ne_none _).symm

/-- Components that lead to a directory can be resolved first, and what follows
    them from there. Some of the links may be used up by then. -/
theorem resolve_append {links : Nat} (h : Leads node links p cs q) (hdir : node q = some .dir)
    (ds : List FileName) :
    ∃ left, resolve node links p (cs ++ ds) = resolve node left q ds := by
  induction h with
  | here links p => exact ⟨links, rfl⟩
  | dot hdot _ ih =>
      rw [List.cons_append, resolve_dot hdot]
      exact ih hdir
  | parent _ ih =>
      rw [List.cons_append, resolve_parent]
      exact ih hdir
  | dir hc hnode _ ih =>
      rw [List.cons_append, resolve_dir hc hnode]
      exact ih hdir
  | link hc hnode _ ih =>
      rw [List.cons_append, resolve_link hc hnode, ← List.append_assoc]
      exact ih hdir
  | last links _ hnode => exact absurd hdir (not_last hnode)

/-- More directories and links do not lead a path to a directory elsewhere. -/
theorem Leads.mono {node' : Place → Option Node}
    (hmore : ∀ p n, node p = some n → node' p = some n) {links : Nat}
    (h : Leads node links p cs q) (hdir : node q = some .dir) : Leads node' links p cs q := by
  induction h with
  | here links p => exact .here links p
  | dot hdot _ ih => exact .dot hdot (ih hdir)
  | parent _ ih => exact .parent (ih hdir)
  | dir hc hnode _ ih => exact .dir hc (hmore _ _ hnode) (ih hdir)
  | link hc hnode _ ih => exact .link hc (hmore _ _ hnode) (ih hdir)
  | last links _ hnode => exact absurd hdir (not_last hnode)

end Resolution

namespace FileSystem

variable {fs : FileSystem} {p q cwd : Place} {c : FileName} {path : List UInt8}

theorem node_eq_dir : fs.node p = some .dir ↔ fs.entry p = some .dir := by
  unfold node
  cases fs.entry p with
  | none => simp only [Option.bind_none, reduceCtorEq]
  | some e => cases e <;> simp [Entry.node]

theorem entry_put {e : Entry} (h : fs.CanHold q) :
    (fs.put q e).entry = Function.update fs.entry q (some e) := by
  rw [put, dif_pos h]

/-- A new file is not seen on the way. -/
theorem node_put {e : Entry} (he : e.node = none) : (fs.put q e).node = fs.node := by
  by_cases h : fs.CanHold q
  · funext r
    unfold node
    rw [entry_put h]
    by_cases hr : r = q
    · rw [hr, Function.update_self, Option.bind_some, he]
      cases q with
      | nil => exact h.elim
      | cons c p => exact h.2.2.symm
    · rw [Function.update_of_ne hr]
  · rw [put, dif_neg h]

theorem node_written (content : List UInt8) : (fs.written q content).node = fs.node := by
  unfold written
  split <;> exact node_put rfl

/-- What is written is in a file of that place, and no other place is touched. -/
theorem entry_written (h : fs.CanHold q) (content : List UInt8) :
    ∃ f : File, f.content = content ∧
      (fs.written q content).entry = Function.update fs.entry q (some (.file f)) := by
  unfold written
  split
  · exact ⟨_, rfl, entry_put h⟩
  · exact ⟨_, rfl, entry_put h⟩

/-- A file that was not there before can be read and written. -/
theorem entry_written_new (h : fs.CanHold q) (hnew : fs.entry q = none) (content : List UInt8) :
    (fs.written q content).entry =
      Function.update fs.entry q (some (.file ⟨content, true, true⟩)) := by
  unfold written
  simp only [hnew]
  exact entry_put h

/-- Where there is a file, there can be one. -/
theorem canHold_of_file {f : File} (h : fs.entry q = some (.file f)) : fs.CanHold q := by
  have hnode : fs.node q = none := by
    rw [node, h]
    rfl
  cases q with
  | nil =>
      rw [fs.root] at h
      cases h
  | cons c p =>
      have hparent := fs.parent c p (by rw [h]; exact Option.some_ne_none _)
      exact ⟨hparent.1, hparent.2, hnode⟩

/-- In what is not a directory there is nothing. -/
theorem entry_child_eq_none (h : fs.entry p ≠ some .dir) (c : FileName) :
    fs.entry (c :: p) = none := by
  by_contra hentry
  exact h (fs.parent c p hentry).2

/-- Every way to an entry is through directories. -/
theorem entry_of_append {l : List FileName} (hl : l ≠ []) :
    fs.entry (l ++ p) ≠ none → fs.entry p = some .dir := by
  induction l with
  | nil => exact absurd rfl hl
  | cons c l ih =>
      intro hentry
      have hparent := (fs.parent c (l ++ p) hentry).2
      by_cases hnil : l = []
      · rwa [hnil, List.nil_append] at hparent
      · refine ih hnil ?_
        rw [hparent]
        exact Option.some_ne_none _

theorem chdir_eq_some_iff :
    fs.chdir cwd path = some p ↔ fs.lookup cwd path = some p ∧ fs.node p = some .dir := by
  rw [chdir, Option.filter_eq_some_iff, decide_eq_true_iff]

/-- Only directories and links matter for where paths lead. -/
theorem lookup_congr {fs' : FileSystem} (h : fs'.node = fs.node) : fs'.lookup = fs.lookup := by
  unfold lookup
  rw [h]

theorem chdir_congr {fs' : FileSystem} (h : fs'.node = fs.node) : fs'.chdir = fs.chdir := by
  unfold chdir
  rw [lookup_congr h, h]

/-- More of them do not lead a path to a directory elsewhere. -/
theorem chdir_mono {fs' : FileSystem} (hnode : ∀ p n, fs.node p = some n → fs'.node p = some n)
    (h : fs.chdir cwd path = some p) : fs'.chdir cwd path = some p := by
  rcases chdir_eq_some_iff.mp h with ⟨hlookup, hdir⟩
  rw [lookup, Option.ite_none_left_eq_some] at hlookup
  refine chdir_eq_some_iff.mpr ⟨?_, hnode p _ hdir⟩
  rw [lookup, if_neg hlookup.1]
  exact resolve_of_leads ((leads_of_resolve _ _ _ p hlookup.2).mono hnode hdir)

/-- What `mkdir` does, if it does anything. -/
theorem mkdir_cases : fs.mkdir cwd path = fs ∨
    ∃ q, fs.entry q = none ∧ fs.mkdir cwd path = fs.put q .dir := by
  unfold mkdir
  dsimp only
  split
  · exact Or.inl rfl
  · rename_i r _
    by_cases hnew : fs.entry ((path.splitOn slash).getLastD [] :: r) = none
    · exact Or.inr ⟨_, hnew, if_pos hnew⟩
    · exact Or.inl (if_neg hnew)

/-- A new directory takes nothing away. -/
theorem node_mkdir {n : Node} (h : fs.node p = some n) : (fs.mkdir cwd path).node p = some n := by
  rcases mkdir_cases with hsame | ⟨q, hnew, hput⟩
  · rw [hsame]
    exact h
  · rw [hput]
    by_cases hhold : fs.CanHold q
    · have hp : p ≠ q := by
        rintro rfl
        rw [node, hnew] at h
        cases h
      rw [node, entry_put hhold, Function.update_of_ne hp]
      exact h
    · rw [put, dif_neg hhold]
      exact h

/-- The directory above a directory. -/
theorem node_tail (h : fs.node p = some .dir) : fs.node p.tail = some .dir := by
  cases p with
  | nil => exact h
  | cons c p =>
      have hentry : fs.entry (c :: p) ≠ none := by
        rw [node_eq_dir.mp h]
        exact Option.some_ne_none _
      exact node_eq_dir.mpr (fs.parent c p hentry).2

/-- A path begins in a directory. -/
theorem node_base (h : fs.node p = some .dir) (path : List UInt8) :
    fs.node (base path p) = some .dir := by
  unfold base
  split_ifs
  · exact node_eq_dir.mpr fs.root
  · exact h

theorem chdir_parent (h : fs.node p = some .dir) : fs.chdir p (bytes "..") = some p.tail := by
  rw [chdir_eq_some_iff]
  exact ⟨rfl, node_tail h⟩

/-- A name that is not that of a link leads to its place in the directory. -/
theorem lookup_name (hc : Proper c) (hlink : ∀ target, fs.node (c :: p) ≠ some (.link target)) :
    fs.lookup p c = some (c :: p) := by
  rw [lookup, if_neg hc.2.1, base_of_proper hc, splitOn_of_proper hc, resolve_last hc.isName hlink]

theorem chdir_name (hc : Proper c) (h : fs.node (c :: p) = some .dir) :
    fs.chdir p c = some (c :: p) := by
  refine chdir_eq_some_iff.mpr ⟨lookup_name hc fun target hlink => ?_, h⟩
  rw [h] at hlink
  cases hlink

/-- A path to a directory made longer by a name. -/
theorem lookup_child (h : fs.chdir cwd path = some p) (hc : Proper c)
    (hlink : ∀ target, fs.node (c :: p) ≠ some (.link target)) :
    fs.lookup cwd (path ++ slash :: c) = some (c :: p) := by
  rcases chdir_eq_some_iff.mp h with ⟨hlookup, hdir⟩
  rw [lookup, Option.ite_none_left_eq_some] at hlookup
  rcases hlookup with ⟨hpath, hresolve⟩
  have hbase : base (path ++ slash :: c) cwd = base path cwd := by
    cases path with
    | nil => exact absurd rfl hpath
    | cons b path => rfl
  rw [lookup, if_neg (List.append_ne_nil_of_left_ne_nil hpath _), hbase,
    List.splitOn_append_cons_self, splitOn_of_proper hc]
  rcases resolve_append (leads_of_resolve _ _ _ p hresolve) hdir [c] with ⟨left, happend⟩
  rw [happend, resolve_last hc.isName hlink]

/-- Components without slashes lead to a directory or to a place for a file. -/
theorem canHold_of_leads {links : Nat} {cs : List FileName} (h : Leads fs.node links p cs q)
    (hp : fs.node p = some .dir) (hcs : ∀ c ∈ cs, slash ∉ c) :
    fs.node q = some .dir ∨ fs.CanHold q := by
  induction h with
  | here links p => exact Or.inl hp
  | dot _ _ ih => exact ih hp (List.forall_mem_cons.mp hcs).2
  | parent _ ih => exact ih (node_tail hp) (List.forall_mem_cons.mp hcs).2
  | dir _ hnode _ ih => exact ih hnode (List.forall_mem_cons.mp hcs).2
  | @link _ p _ _ _ _ target _ _ ih =>
      refine ih (node_base hp target) fun c hc => ?_
      rcases List.mem_append.mp hc with hc | hc
      · exact slash_notMem_of_mem_splitOn target c hc
      · exact (List.forall_mem_cons.mp hcs).2 c hc
  | @last _ p c hc hnode =>
      have hproper : Proper c :=
        ⟨hcs c List.mem_cons_self, fun h => hc.1 (Or.inl h), fun h => hc.1 (Or.inr h), hc.2⟩
      exact Or.inr ⟨hproper, node_eq_dir.mp hp, hnode⟩

/-- So does a path. -/
theorem canHold_of_lookup (hcwd : fs.node cwd = some .dir) (h : fs.lookup cwd path = some q) :
    fs.node q = some .dir ∨ fs.CanHold q := by
  rw [lookup, Option.ite_none_left_eq_some] at h
  exact canHold_of_leads (leads_of_resolve _ _ _ q h.2) (node_base hcwd path)
    (slash_notMem_of_mem_splitOn path)

/-- What is opened for writing is a place for a file. -/
theorem canHold_of_openWrite (hcwd : fs.node cwd = some .dir)
    (h : fs.openWrite cwd path = some q) : fs.CanHold q := by
  rw [openWrite, Option.filter_eq_some_iff] at h
  rcases canHold_of_lookup hcwd h.1 with hdir | hhold
  · have hfile := h.2
    rw [node_eq_dir.mp hdir] at hfile
    cases hfile
  · exact hhold

/-- A directory with a new name. -/
theorem mkdir_name (hc : Proper c) (hp : fs.node p = some .dir) (hnew : fs.entry (c :: p) = none) :
    fs.CanHold (c :: p) ∧ fs.mkdir p c = fs.put (c :: p) .dir := by
  have hnode : fs.node (c :: p) = none := by
    rw [node, hnew]
    rfl
  refine ⟨⟨hc, node_eq_dir.mp hp, hnode⟩, ?_⟩
  have hresolve : resolve fs.node MAXSYMLINKS (base c p) [c].dropLast = some p := by
    rw [base_of_proper hc]
    rfl
  unfold mkdir
  rw [splitOn_of_proper hc]
  simp only [hresolve, List.getLastD_cons, List.getLastD_nil, hnew, if_true]

end FileSystem

end OsLabs
