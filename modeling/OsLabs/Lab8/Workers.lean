import OsLabs.Core.Run
import OsLabs.Lab8.Grid

/-!
# The Workers of the Threaded Game

The threads of `lab8/src/simulation.c` and how its `main` divides the grid
among them. Each of `n` threads has a range of rows, `height / n` of them, and
the last one also the rows that are left. Between two calls of `pause` a thread
goes once through the cells of its rows, and for each it calls `is_alive` on
the foreground and stores the answer into the background.

Threads interleave, so a step is what one thread does between two accesses to
shared memory: it reads a pointer of its `ThreadData` and calls `is_alive`, it
looks at one neighbour, it looks at the cell itself, or it stores. `Workers` is
the system of the threads alone, with pointers nobody changes.

Whatever the order of the steps, the background ends as `update_grid` would
leave it. For one thread that is an induction on the cells it has done, and
what the other threads do in between is harmless because every store is of a
right value. That the ranges meet every row is what is left to say, and
`partition` says it for any number of threads, more than there are rows
included: `height / n` is then 0 and the last thread has them all.

## Main definitions

* `Buffer`: The two arrays, as pointers to them.
* `ThreadData`: The structure of `posix.h`.
* `n_threads`, `thread_data`: The number of threads, and what `main` gives them.
* `Loop`, `loopStep`: Where a thread stands in its double loop, and a step of it.
* `Workers`, `workersStep`, `begun`: All threads in their double loops.
* `UpTo`, `LoopInv`: A thread has the cells before its position right.
* `Loop.left`: A bound on the steps a thread has left.

## Theorems

* `partition`: Every row is in the range of exactly one thread.
* `loopStep_spec`: A step keeps right cells right and its own promise.
* `loopStep_left`: A thread that is not finished takes a step to fewer.
* `workers_update_grid`: Together the threads do what `update_grid` does.
* `workers_update_grid_three`: Three threads.
-/

namespace OsLabs

namespace Lab8

def MAX_THREADS : Nat := 64

/-- A pointer to one of the two arrays that `main` allocates. -/
inductive Buffer
  | first
  | second
  deriving DecidableEq

/-- `ThreadDataTypeDef`. A pointer is `none` while it is `NULL`. -/
structure ThreadData where
  start_row : Nat
  end_row : Nat
  foreground : Option Buffer
  background : Option Buffer
  width : Nat
  height : Nat

/-- The number of threads for the number the user asks for. -/
def n_threads (arg : Nat) : Nat := if arg > MAX_THREADS then MAX_THREADS else arg

/-- What `main` stores into `thread_data[i]` before it creates the thread. -/
def thread_data (n i : Nat) : ThreadData :=
  let rows_per_thread := GRID_HEIGHT / n
  { start_row := i * rows_per_thread
    end_row := if i = n - 1 then GRID_HEIGHT else (i + 1) * rows_per_thread
    foreground := none
    background := none
    width := GRID_WIDTH
    height := GRID_HEIGHT }

/-- Where a thread stands in its double loop. -/
inductive Loop
  /-- At the tests of the two loops. -/
  | cell (y x : Nat)
  /-- In `is_alive`, with these offsets still to look at. -/
  | counting (y x : Nat) (grid : Buffer) (rest : List (Int × Int)) (count : Nat)
  /-- The answer is known; the store is next. -/
  | store (y x : Nat) (alive : Bool)
  /-- Past both loops. -/
  | finished

/-- One step of a thread's double loop: the memory after it, and where the
    thread then stands. -/
def loopStep (data : ThreadData) (mem : Buffer → Grid) : Loop → Option ((Buffer → Grid) × Loop)
  | .cell y x =>
    if y < data.end_row then
      if x < data.width then data.foreground.map fun grid => (mem, .counting y x grid around 0)
      else some (mem, .cell (y + 1) 0)
    else some (mem, .finished)
  | .counting y x grid (d :: rest) count =>
    some (mem, .counting y x grid rest (count_at y x (mem grid) count d))
  | .counting y x grid [] count =>
    some (mem, .store y x (rule ((mem grid).get ((y : Int) * GRID_WIDTH + x).toNat) count))
  | .store y x alive => data.background.map fun grid =>
    (Function.update mem grid ((mem grid).set (y * data.width + x) alive.toUInt8), .cell y (x + 1))
  | .finished => none

/-- The threads in their double loops, and what they share. -/
structure Workers (n : Nat) where
  mem : Buffer → Grid
  data : Fin n → ThreadData
  loop : Fin n → Loop

variable {n : Nat}

/-- A step of thread `i`. -/
def workersStep (s : Workers n) (i : Fin n) : Option (Workers n) :=
  (loopStep (s.data i) s.mem (s.loop i)).map fun r =>
    { s with mem := r.1, loop := Function.update s.loop i r.2 }

/-- Every thread before its first cell, the first array being the foreground. -/
def begun (n : Nat) (src old : Grid) : Workers n where
  mem := fun | .first => src | .second => old
  data i := { thread_data n i with foreground := some .first, background := some .second }
  loop i := .cell (thread_data n i).start_row 0

/-- The cells of the thread's rows before row `y` and column `x` are right. -/
def UpTo (data : ThreadData) (src : Grid) (y x : Nat) (dst : Grid) : Prop :=
  ∀ i j, data.start_row ≤ i → i < data.end_row → j < GRID_WIDTH → i < y ∨ i = y ∧ j < x →
    Right src i j dst

/-- What holds of a thread that reads the array `src` through the pointer
    `fore` and stores into `dst`. -/
def LoopInv (data : ThreadData) (fore : Buffer) (src dst : Grid) : Loop → Prop
  | .cell y x => UpTo data src y x dst
  | .counting y x grid rest count => UpTo data src y x dst ∧ y < data.end_row ∧ x < GRID_WIDTH ∧
      grid = fore ∧ rest.foldl (count_at y x src) count = around.foldl (count_at y x src) 0
  | .store y x alive => UpTo data src y x dst ∧ y < data.end_row ∧ x < GRID_WIDTH ∧
      alive = is_alive y x src
  | .finished => UpTo data src data.end_row 0 dst

/-- No cell of `dst` that was right is wrong in `dst'`. -/
def KeepsRight (src dst dst' : Grid) : Prop :=
  ∀ y x, y < GRID_HEIGHT → x < GRID_WIDTH → Right src y x dst → Right src y x dst'

/-- A bound on the steps a thread has left. A cell takes 11: the call, the nine
    offsets and the cell itself, and the store. -/
def Loop.left (data : ThreadData) : Loop → Nat
  | .cell y x => 12 * ((data.end_row - y) * (data.width + 1) + (data.width - x)) + 1
  | .counting y x _ rest _ =>
    12 * ((data.end_row - y) * (data.width + 1) + (data.width - (x + 1))) + rest.length + 3
  | .store y x _ => 12 * ((data.end_row - y) * (data.width + 1) + (data.width - (x + 1))) + 2
  | .finished => 0

section Partition

variable {i j y : Nat}

theorem n_threads_pos {arg : Nat} (h : 1 ≤ arg) : 0 < n_threads arg := by
  unfold n_threads MAX_THREADS
  split_ifs <;> omega

/-- A full share of rows for each thread fits into the grid. -/
theorem share_le (hi : i < n) : (i + 1) * (GRID_HEIGHT / n) ≤ GRID_HEIGHT :=
  Nat.le_trans (Nat.mul_le_mul_right _ hi) (Nat.mul_div_le GRID_HEIGHT n)

theorem end_row_last : (thread_data n (n - 1)).end_row = GRID_HEIGHT := if_pos rfl

theorem end_row_of_ne (hi : i ≠ n - 1) :
    (thread_data n i).end_row = (i + 1) * (GRID_HEIGHT / n) := if_neg hi

theorem end_row_le (hi : i < n) : (thread_data n i).end_row ≤ GRID_HEIGHT := by
  by_cases hlast : i = n - 1
  · rw [hlast, end_row_last]
  · rw [end_row_of_ne hlast]
    exact share_le hi

/-- The rows of a thread end where those of the next begin. -/
theorem end_row_le_start_row (hij : i < j) (hj : j < n) :
    (thread_data n i).end_row ≤ (thread_data n j).start_row := by
  rw [end_row_of_ne (by omega)]
  exact Nat.mul_le_mul_right _ hij

/-- Every row is in the range of some thread: the one its number divided by the
    share gives, or the last. -/
theorem exists_thread (hn : 0 < n) (hy : y < GRID_HEIGHT) :
    ∃ i : Fin n, (thread_data n i).start_row ≤ y ∧ y < (thread_data n i).end_row := by
  by_cases hlast : (n - 1) * (GRID_HEIGHT / n) ≤ y
  · refine ⟨⟨n - 1, by omega⟩, hlast, ?_⟩
    rw [end_row_last]
    exact hy
  · -- The row is before the last range, so the share is not 0.
    have hlt : y < (n - 1) * (GRID_HEIGHT / n) := Nat.lt_of_not_le hlast
    have hshare : 0 < GRID_HEIGHT / n := by
      by_contra hzero
      rw [Nat.eq_zero_of_not_pos hzero, Nat.mul_zero] at hlt
      exact absurd hlt (Nat.not_lt_zero y)
    have hi : y / (GRID_HEIGHT / n) < n - 1 := (Nat.div_lt_iff_lt_mul hshare).mpr hlt
    refine ⟨⟨y / (GRID_HEIGHT / n), by omega⟩, Nat.div_mul_le_self y _, ?_⟩
    rw [end_row_of_ne (Nat.ne_of_lt hi)]
    exact (Nat.div_lt_iff_lt_mul hshare).mp (Nat.lt_succ_self _)

/-- Every row is in the range of exactly one thread. -/
theorem partition (hn : 0 < n) (hy : y < GRID_HEIGHT) :
    ∃! i : Fin n, (thread_data n i).start_row ≤ y ∧ y < (thread_data n i).end_row := by
  rcases exists_thread hn hy with ⟨i, hrange⟩
  refine ⟨i, hrange, fun j hj => ?_⟩
  by_contra hne
  -- Of two different threads one has all its rows before the other's.
  rcases Nat.lt_or_gt_of_ne (fun h => hne (Fin.ext h)) with hlt | hlt
  · have hbefore := end_row_le_start_row hlt i.isLt
    omega
  · have hbefore := end_row_le_start_row hlt j.isLt
    omega

end Partition

section OneThread

variable {data : ThreadData} {mem mem' : Buffer → Grid} {fore back : Buffer} {src dst dst' : Grid}
  {pc pc' : Loop}

theorem keepsRight_refl : KeepsRight src dst dst := fun _ _ _ _ h => h

theorem UpTo.keeps {y x : Nat} (hend : data.end_row ≤ GRID_HEIGHT) (h : UpTo data src y x dst)
    (hkeep : KeepsRight src dst dst') : UpTo data src y x dst' :=
  fun i j hstart hi hj hbefore =>
    hkeep i j (Nat.lt_of_lt_of_le hi hend) hj (h i j hstart hi hj hbefore)

/-- What other threads do to the background is harmless. -/
theorem LoopInv.keeps (hend : data.end_row ≤ GRID_HEIGHT) (h : LoopInv data fore src dst pc)
    (hkeep : KeepsRight src dst dst') : LoopInv data fore src dst' pc := by
  cases pc with
  | cell y x => exact UpTo.keeps hend h hkeep
  | counting y x grid rest count => exact ⟨h.1.keeps hend hkeep, h.2⟩
  | store y x alive => exact ⟨h.1.keeps hend hkeep, h.2⟩
  | finished => exact UpTo.keeps hend h hkeep

/-- A thread before its first cell has promised nothing. -/
theorem upTo_start (data : ThreadData) (src dst : Grid) :
    UpTo data src data.start_row 0 dst := by
  intro i j hstart _ _ hbefore
  omega

/-- A store goes to the background and leaves the foreground alone. -/
theorem store_spec {y x : Nat} {alive : Bool} (hwidth : data.width = GRID_WIDTH)
    (hend : data.end_row ≤ GRID_HEIGHT) (hne : fore ≠ back)
    (h : LoopInv data fore (mem fore) (mem back) (.store y x alive)) :
    Function.update mem back ((mem back).set (y * data.width + x) alive.toUInt8) fore = mem fore ∧
      KeepsRight (mem fore) (mem back) ((mem back).set (y * data.width + x) alive.toUInt8) ∧
      UpTo data (mem fore) y (x + 1) ((mem back).set (y * data.width + x) alive.toUInt8) := by
  rcases h with ⟨hupto, hy, hx, halive⟩
  rw [hwidth, halive]
  have hkeep : KeepsRight (mem fore) (mem back) (update_cell (mem fore) y (mem back) x) :=
    fun _ _ hi hj hright => right_set hx hi hj hright
  refine ⟨Function.update_of_ne hne _ _, hkeep, fun i j hstart hi hj hbefore => ?_⟩
  by_cases hat : i = y ∧ j = x
  · rw [hat.1, hat.2]
    exact right_store (Nat.lt_of_lt_of_le hy hend) hx (mem back)
  · exact hupto.keeps hend hkeep i j hstart hi hj (by omega)

/-- A step leaves the foreground and every right cell of the background as
    they are, and the thread has done what its new position says. -/
theorem loopStep_spec (hwidth : data.width = GRID_WIDTH) (hend : data.end_row ≤ GRID_HEIGHT)
    (hfore : data.foreground = some fore) (hback : data.background = some back)
    (hne : fore ≠ back) (h : LoopInv data fore (mem fore) (mem back) pc)
    (hstep : loopStep data mem pc = some (mem', pc')) :
    mem' fore = mem fore ∧ KeepsRight (mem fore) (mem back) (mem' back) ∧
      LoopInv data fore (mem fore) (mem' back) pc' := by
  cases pc with
  | cell y x =>
      rw [loopStep, hfore, hwidth] at hstep
      split_ifs at hstep with hy hx
      · simp only [Option.map_some, Option.some.injEq, Prod.mk.injEq] at hstep
        rcases hstep with ⟨rfl, rfl⟩
        exact ⟨rfl, keepsRight_refl, h, hy, hx, rfl, rfl⟩
      · simp only [Option.some.injEq, Prod.mk.injEq] at hstep
        rcases hstep with ⟨rfl, rfl⟩
        -- Past the last column the whole row is done.
        exact ⟨rfl, keepsRight_refl, fun i j hstart hi hj hbefore =>
          h i j hstart hi hj (by omega)⟩
      · simp only [Option.some.injEq, Prod.mk.injEq] at hstep
        rcases hstep with ⟨rfl, rfl⟩
        exact ⟨rfl, keepsRight_refl, fun i j hstart hi hj _ => h i j hstart hi hj (by omega)⟩
  | counting y x grid rest count =>
      rcases h with ⟨hupto, hy, hx, rfl, hcount⟩
      cases rest with
      | cons d rest =>
          simp only [loopStep, Option.some.injEq, Prod.mk.injEq] at hstep
          rcases hstep with ⟨rfl, rfl⟩
          exact ⟨rfl, keepsRight_refl, hupto, hy, hx, rfl, hcount⟩
      | nil =>
          simp only [loopStep, Option.some.injEq, Prod.mk.injEq] at hstep
          rcases hstep with ⟨rfl, rfl⟩
          refine ⟨rfl, keepsRight_refl, hupto, hy, hx, ?_⟩
          rw [List.foldl_nil] at hcount
          rw [hcount, is_alive]
  | store y x alive =>
      rw [loopStep, hback] at hstep
      simp only [Option.map_some, Option.some.injEq, Prod.mk.injEq] at hstep
      rcases hstep with ⟨rfl, rfl⟩
      rw [Function.update_self]
      exact store_spec hwidth hend hne h
  | finished => exact absurd hstep (by simp only [loopStep, reduceCtorEq, not_false_eq_true])

/-- A thread that has its pointers and is not finished takes a step, and then
    has fewer left. -/
theorem loopStep_left (hfore : data.foreground = some fore) (hback : data.background = some back)
    (mem : Buffer → Grid) (hpc : pc ≠ .finished) :
    ∃ r, loopStep data mem pc = some r ∧ r.2.left data < pc.left data := by
  cases pc with
  | cell y x =>
      rw [loopStep, hfore]
      split_ifs with hy hx
      · refine ⟨_, rfl, ?_⟩
        have hlen : around.length = 9 := rfl
        simp only [Loop.left, hlen]
        omega
      · refine ⟨_, rfl, ?_⟩
        have hrow : (data.end_row - y) * (data.width + 1)
            = (data.end_row - (y + 1)) * (data.width + 1) + (data.width + 1) := by
          rw [← Nat.succ_mul]
          congr 1
          omega
        simp only [Loop.left]
        omega
      · exact ⟨_, rfl, Nat.succ_pos _⟩
  | counting y x grid rest count =>
      cases rest with
      | cons d rest =>
          refine ⟨_, rfl, ?_⟩
          simp only [Loop.left, List.length_cons]
          omega
      | nil =>
          refine ⟨_, rfl, ?_⟩
          simp only [Loop.left]
          omega
  | store y x alive =>
      rw [loopStep, hback]
      refine ⟨_, rfl, ?_⟩
      simp only [Loop.left]
      omega
  | finished => exact absurd rfl hpc

end OneThread

section AllThreads

variable {s t : Workers n} {src : Grid}

/-- Every thread has its pointers and has done what its position says. -/
structure WorkersInv (src : Grid) (s : Workers n) : Prop where
  data_eq : s.data = (begun n src src).data
  source : s.mem .first = src
  loops : ∀ i, LoopInv (s.data i) .first src (s.mem .second) (s.loop i)

theorem workersInv_begun (src old : Grid) : WorkersInv src (begun n src old) where
  data_eq := rfl
  source := rfl
  loops i := upTo_start (begun n src old |>.data i) src old

/-- A step of one thread keeps its own promise and everybody else's. -/
theorem workersInv_step {i : Fin n} (h : WorkersInv src s) (hstep : workersStep s i = some t) :
    WorkersInv src t := by
  rcases Option.map_eq_some_iff.mp hstep with ⟨⟨mem', pc'⟩, hloop, rfl⟩
  have hdata : ∀ j, s.data j = (begun n src src).data j := fun j => by rw [h.data_eq]
  have hend : ∀ j, (s.data j).end_row ≤ GRID_HEIGHT := fun j => by
    rw [hdata j]
    exact end_row_le j.isLt
  have hown : LoopInv (s.data i) .first (s.mem .first) (s.mem .second) (s.loop i) := by
    rw [h.source]
    exact h.loops i
  have hne : Buffer.first ≠ Buffer.second := by decide
  rcases loopStep_spec (by rw [hdata i]; rfl) (hend i) (by rw [hdata i]; rfl)
    (by rw [hdata i]; rfl) hne hown hloop with ⟨hfirst, hkeep, hnew⟩
  rw [h.source] at hfirst hkeep hnew
  refine ⟨h.data_eq, hfirst, fun j => ?_⟩
  change LoopInv (s.data j) .first src (mem' .second) (Function.update s.loop i pc' j)
  by_cases hj : j = i
  · rw [hj, Function.update_self]
    exact hnew
  · rw [Function.update_of_ne hj]
    exact (h.loops j).keeps (hend j) hkeep

/-- When every thread is past its loops, every cell is right. -/
theorem update_grid_of_finished (hn : 0 < n) (h : WorkersInv src s) (old : Grid)
    (hdone : ∀ i, s.loop i = .finished) : s.mem .second = update_grid src old := by
  refine eq_update_grid old fun y x hy hx => ?_
  rcases partition hn hy with ⟨i, ⟨hstart, hend⟩, _⟩
  have hloop := h.loops i
  rw [hdone i, h.data_eq] at hloop
  exact hloop y x hstart hend hx (Or.inl hend)

/-- The steps all threads together have left, at most. -/
def Workers.left (src : Grid) (s : Workers n) : Nat :=
  ∑ i, (s.loop i).left ((begun n src src).data i)

/-- While some thread is not finished, a step of it leads to fewer. -/
theorem workers_progress (h : WorkersInv src s) (hpc : ¬ ∀ i, s.loop i = .finished) :
    ∃ i t, True ∧ workersStep s i = some t ∧ WorkersInv src t ∧ t.left src < s.left src := by
  rcases not_forall.mp hpc with ⟨i, hi⟩
  have hfore : (s.data i).foreground = some .first := by rw [h.data_eq]; rfl
  have hback : (s.data i).background = some .second := by rw [h.data_eq]; rfl
  rcases loopStep_left hfore hback s.mem hi with ⟨r, hr, hless⟩
  have hstep : workersStep s i = some
      { s with mem := r.1, loop := Function.update s.loop i r.2 } := by rw [workersStep, hr]; rfl
  refine ⟨i, _, trivial, hstep, workersInv_step h hstep, ?_⟩
  rw [h.data_eq] at hless
  -- Only thread `i` has changed its place.
  refine Finset.sum_lt_sum (fun j _ => ?_) ⟨i, Finset.mem_univ i, ?_⟩
  · by_cases hj : j = i
    · rw [hj]
      simp only [Function.update_self]
      exact Nat.le_of_lt hless
    · simp only [Function.update_of_ne hj]
      exact Nat.le_refl _
  · simp only [Function.update_self]
    exact hless

end AllThreads

/-- Every row belongs to exactly one thread, and no range goes past the grid.
    In whatever order the threads take their steps, from whatever the
    background held before, they can all finish, and when they have, the
    background is what `update_grid` makes of it. -/
theorem workers_update_grid (arg : Nat) (src old : Grid) (harg : 1 ≤ arg) :
    (∀ y, y < GRID_HEIGHT → ∃! i : Fin (n_threads arg),
      (thread_data (n_threads arg) i).start_row ≤ y ∧
        y < (thread_data (n_threads arg) i).end_row) ∧
    (∀ i : Fin (n_threads arg), (thread_data (n_threads arg) i).end_row ≤ GRID_HEIGHT) ∧
    ∀ s, Reachable workersStep (begun (n_threads arg) src old) s →
      ((∀ i, s.loop i = .finished) → s.mem .second = update_grid src old) ∧
      s.mem .first = src ∧
      ∃ t, Reachable workersStep s t ∧ ∀ i, t.loop i = .finished := by
  have hn := n_threads_pos harg
  refine ⟨fun y hy => partition hn hy, fun i => end_row_le i.isLt, fun s hreach => ?_⟩
  have h : WorkersInv src s :=
    hreach.invariant (workersInv_begun src old) fun _ _ _ hv _ hstep => workersInv_step hv hstep
  rcases reaches_goal (Workers.left src) (fun _ hv hgoal => workers_progress hv hgoal)
    (s.left src) s h (Nat.le_refl _) with ⟨t, hrun, _, hdone⟩
  exact ⟨update_grid_of_finished hn h old, h.source, t, hrun, hdone⟩

/-- Four live cells in a corner, which no generation changes. -/
def block : Grid := (((CharArray.zero _).set 0 1).set 1 1 |>.set GRID_WIDTH 1).set (GRID_WIDTH + 1) 1

/-- Three threads have 11, 11 and 13 of the rows, and finish. -/
theorem workers_update_grid_three :
    ((thread_data 3 0).end_row, (thread_data 3 1).end_row, (thread_data 3 2).end_row)
      = (11, 22, 35) ∧
    ∃ s, Reachable workersStep (begun (n_threads 3) block (CharArray.zero _)) s ∧
      (∀ i, s.loop i = .finished) ∧ s.mem .second = update_grid block (CharArray.zero _) := by
  have hall := (workers_update_grid 3 block (CharArray.zero _) (by decide)).2.2
  rcases (hall _ Reaches.refl).2.2 with ⟨s, hreach, hdone⟩
  exact ⟨by decide, s, hreach, hdone, (hall s hreach).1 hdone⟩

end Lab8

end OsLabs
