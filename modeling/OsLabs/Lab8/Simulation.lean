import Mathlib.Data.List.Chain
import OsLabs.Lab8.Workers

/-!
# The Threaded Game

`main` of `lab8/src/simulation.c` with its threads. Its loop draws the
foreground, stores the pointers to the two arrays for every thread and sends it
`SIGUSR1`, sleeps, and swaps the two arrays. A thread calls `pause`, goes
through its rows when that returns, and calls `pause` again.

A signal sent to a thread stays pending until it is delivered, and two pending
ones are one. The handler does nothing. So a signal that is delivered while the
thread is in `pause` ends it, one that is delivered at any other time is lost,
and one that is delivered before any thread has installed the handler ends the
program. Nothing tells `main` what the threads have done: it sleeps a fixed
time instead. Drawing is one step.

The array drawn is therefore the next generation only as long as the signals
come late enough and the threads are fast enough, and `InTime` is that, said of
the state before a step: a signal is delivered to a thread that is in `pause`,
and no thread is in its loops, nor has a signal coming, when `main` draws. A
thread may still be at work while `main` swaps, because it has the pointers it
was given.

The last component of the state is history, the grids drawn. No step reads it.

## Main definitions

* `Main`, `Worker`: Where `main` and a thread stand.
* `State`, `Event`, `step`: The transition system.
* `start`: Its state when the threads are created.
* `Successive`: Each grid drawn is the next generation of the one before.
* `InTime`: The signal is not lost, the threads are done.
* `Round`: What the threads have done since the last grid was drawn.
* `Inv`: The invariant of runs that are in time.
* `left`: The steps left until the next grid is drawn.

## Theorems

* `round_worker`, `round_deliver`, `inv_main`: What each kind of step preserves.
* `next_draw`: There is a way to the next grid that is in time.
* `draws_successive`: In time, every grid drawn is the next generation.
* `draws_successive_three`: Three threads and two grids.
* `signal_before_pause`: A signal that is lost.
-/

namespace OsLabs

namespace Lab8

/-- Where `main` stands in its loop. -/
inductive Main (n : Nat)
  /-- At `draw_grid`. -/
  | draw
  /-- At the test of the loop over the threads; the store of the foreground
      pointer is next. -/
  | set_foreground (i : Nat)
  /-- The store of the background pointer is next. -/
  | set_background (i : Fin n)
  /-- `pthread_kill` is next. -/
  | wake (i : Fin n)
  /-- In `usleep`. -/
  | sleep
  /-- At the swap of the two pointers. -/
  | swap

/-- Where a thread stands in `worker_function`. -/
inductive Worker
  /-- The call of `signal` is next. -/
  | starting
  /-- The call of `pause` is next. -/
  | pausing
  /-- In `pause`. -/
  | paused
  /-- In the double loop. -/
  | looping (pc : Loop)

/-- What `main` and the threads share, the signals, and the history. -/
structure State (n : Nat) where
  mem : Buffer → Grid
  data : Fin n → ThreadData
  foreground : Buffer
  background : Buffer
  main : Main n
  worker : Fin n → Worker
  /-- `SIGUSR1` is pending for the thread. -/
  pending : Fin n → Bool
  /-- `SIGUSR1` has its handler, which is one for the whole process. -/
  handled : Bool
  /-- `SIGUSR1` came before that and has ended the process. -/
  killed : Bool
  /-- The grids drawn, in order. -/
  drawn : List Grid

inductive Event (n : Nat)
  /-- A step of `main`. -/
  | main
  /-- A step of a thread. -/
  | worker (i : Fin n)
  /-- The delivery of a signal to a thread. -/
  | deliver (i : Fin n)

variable {n : Nat}

def mainStep (s : State n) : State n :=
  match s.main with
  | .draw => { s with drawn := s.drawn ++ [s.mem s.foreground], main := .set_foreground 0 }
  | .set_foreground i =>
    if h : i < n then
      { s with
        data := Function.update s.data ⟨i, h⟩
          { s.data ⟨i, h⟩ with foreground := some s.foreground }
        main := .set_background ⟨i, h⟩ }
    else { s with main := .sleep }
  | .set_background i =>
    { s with
      data := Function.update s.data i { s.data i with background := some s.background }
      main := .wake i }
  | .wake i =>
    { s with pending := Function.update s.pending i true, main := .set_foreground (i + 1) }
  | .sleep => { s with main := .swap }
  | .swap => { s with foreground := s.background, background := s.foreground, main := .draw }

def State.setWorker (s : State n) (i : Fin n) (pc : Worker) : State n :=
  { s with worker := Function.update s.worker i pc }

def workerStep (s : State n) (i : Fin n) : Option (State n) :=
  match s.worker i with
  | .starting => some { s.setWorker i .pausing with handled := true }
  | .pausing => some (s.setWorker i .paused)
  | .paused => none
  | .looping .finished => some (s.setWorker i .pausing)
  | .looping pc => (loopStep (s.data i) s.mem pc).map fun r =>
    { s.setWorker i (.looping r.2) with mem := r.1 }

/-- The delivery of a pending signal. `pause` returns and the loops begin, if
    the thread is in it. -/
def deliver (s : State n) (i : Fin n) : Option (State n) :=
  if s.pending i then
    if s.handled then
      let s := { s with pending := Function.update s.pending i false }
      match s.worker i with
      | .paused => some (s.setWorker i (.looping (.cell (s.data i).start_row 0)))
      | _ => some s
    else some { s with killed := true }
  else none

def step (s : State n) (e : Event n) : Option (State n) :=
  if s.killed then none
  else match e with
    | .main => some (mainStep s)
    | .worker i => workerStep s i
    | .deliver i => deliver s i

/-- The threads are created and the foreground has its first cells. What the
    background holds is whatever `malloc` has left there. -/
def start (n : Nat) (foreground background : Grid) : State n where
  mem := fun | .first => foreground | .second => background
  data i := thread_data n i
  foreground := .first
  background := .second
  main := .draw
  worker _ := .starting
  pending _ := false
  handled := false
  killed := false
  drawn := []

/-- Each grid drawn is what `update_grid` makes of the one drawn before it. -/
def Successive (drawn : List Grid) : Prop :=
  drawn.IsChain fun grid grid' => ∀ old, grid' = update_grid grid old

/-- Where a thread stands in its loops. Outside them it is past the last
    ones. -/
def Worker.position : Worker → Loop
  | .looping pc => pc
  | _ => .finished

/-- The signal finds its thread in `pause`, and a grid is drawn when no thread
    is in its loops or about to be. -/
def InTime (s : State n) : Event n → Prop
  | .main => match s.main with
    | .draw => ∀ i, (s.worker i).position = .finished ∧ s.pending i = false
    | _ => True
  | .worker _ => True
  | .deliver i => s.worker i = .paused

/-- The first `told` threads have been woken to make `back` the next generation
    of `fore`, which is `last`. Each of them has its signal pending, or it has
    made the cells before its position right. The other threads are idle. -/
structure Round (s : State n) (told : Nat) (fore back : Buffer) (last : Grid) : Prop where
  ne : fore ≠ back
  source : s.mem fore = last
  pointers : ∀ i : Fin n, i < told →
    (s.data i).foreground = some fore ∧ (s.data i).background = some back
  waiting : ∀ i, s.pending i = true → i < told ∧ (s.worker i).position = .finished
  idle : ∀ i : Fin n, told ≤ i → (s.worker i).position = .finished
  loops : ∀ i : Fin n, i < told → s.pending i = false →
    LoopInv (s.data i) fore last (s.mem back) (s.worker i).position

/-- What the threads have done when `main` stands where it does. After the swap
    the array they work on is the foreground. -/
def RoundAt (s : State n) (last : Grid) : Prop :=
  match s.main with
  | .draw => Round s n s.background s.foreground last
  | .set_foreground i => Round s i s.foreground s.background last
  | .set_background i => Round s i s.foreground s.background last ∧
      (s.data i).foreground = some s.foreground
  | .wake i => Round s i s.foreground s.background last ∧
      (s.data i).foreground = some s.foreground ∧ (s.data i).background = some s.background
  | .sleep => Round s n s.foreground s.background last
  | .swap => Round s n s.foreground s.background last

/-- The invariant of runs that are in time. -/
structure Inv (s : State n) : Prop where
  rows : ∀ i, (s.data i).start_row = (thread_data n i).start_row ∧
    (s.data i).end_row = (thread_data n i).end_row ∧ (s.data i).width = GRID_WIDTH
  ne : s.foreground ≠ s.background
  successive : Successive s.drawn
  round : (s.main = .draw ∧ s.drawn = [] ∧ ∃ first, Round s 0 s.foreground s.background first) ∨
    ∃ last ∈ s.drawn.getLast?, RoundAt s last
  alive : s.killed = false ∧ ∀ i, s.worker i ≠ .starting → s.handled = true

section Rounds

variable {s t : State n} {told : Nat} {fore back : Buffer} {last : Grid} {i : Fin n}

/-- A thread that moves outside its loops. -/
theorem Round.move (h : Round s told fore back last) (i : Fin n) (pc : Worker) (handled : Bool)
    (hsame : pc.position = (s.worker i).position) :
    Round { s.setWorker i pc with handled := handled } told fore back last := by
  have hposition : ∀ j, (Function.update s.worker i pc j).position = (s.worker j).position := by
    intro j
    by_cases hj : j = i
    · rw [hj, Function.update_self, hsame]
    · rw [Function.update_of_ne hj]
  exact
    { ne := h.ne
      source := h.source
      pointers := h.pointers
      waiting := fun j hj => ⟨(h.waiting j hj).1, (hposition j).trans (h.waiting j hj).2⟩
      idle := fun j hj => (hposition j).trans (h.idle j hj)
      loops := fun j hj hpending => by
        change LoopInv _ _ _ _ (Function.update s.worker i pc j).position
        rw [hposition j]
        exact h.loops j hj hpending }

/-- A thread in its loops has been woken and its signal is delivered. -/
theorem Round.running (h : Round s told fore back last)
    (hpc : (s.worker i).position ≠ .finished) : i < told ∧ s.pending i = false := by
  refine ⟨?_, ?_⟩
  · by_contra hnot
    exact hpc (h.idle i (Nat.le_of_not_lt hnot))
  · by_contra hpending
    exact hpc (h.waiting i (by simpa using hpending)).2

/-- A step of a thread in its loops. What it stores is right, so the other
    threads keep what they have. -/
theorem Round.loop (hrows : ∀ i, (s.data i).end_row ≤ GRID_HEIGHT ∧ (s.data i).width = GRID_WIDTH)
    (h : Round s told fore back last) {pc pc' : Loop} {mem' : Buffer → Grid}
    (hpc : s.worker i = .looping pc) (hne : pc ≠ .finished)
    (hloop : loopStep (s.data i) s.mem pc = some (mem', pc')) :
    Round { s.setWorker i (.looping pc') with mem := mem' } told fore back last := by
  have hposition : (s.worker i).position = pc := by rw [hpc]; rfl
  rcases h.running (by rw [hposition]; exact hne) with ⟨htold, hpending⟩
  have hown : LoopInv (s.data i) fore (s.mem fore) (s.mem back) pc := by
    rw [h.source, ← hposition]
    exact h.loops i htold hpending
  rcases loopStep_spec (hrows i).2 (hrows i).1 (h.pointers i htold).1 (h.pointers i htold).2 h.ne
    hown hloop with ⟨hfore, hkeep, hnew⟩
  rw [h.source] at hfore hkeep hnew
  refine
    { ne := h.ne
      source := hfore
      pointers := h.pointers
      waiting := fun j hj => ?_
      idle := fun j hj => ?_
      loops := fun j hj hpend => ?_ }
  · -- The thread that moves has no signal pending.
    have hji : j ≠ i := by
      rintro rfl
      exact absurd (hpending.symm.trans hj) (by decide)
    simp only [State.setWorker, Function.update_of_ne hji]
    exact h.waiting j hj
  · have hji : j ≠ i := by
      rintro rfl
      exact absurd htold (Nat.not_lt_of_le hj)
    simp only [State.setWorker, Function.update_of_ne hji]
    exact h.idle j hj
  · by_cases hji : j = i
    · rw [hji]
      simp only [State.setWorker, Function.update_self]
      exact hnew
    · simp only [State.setWorker, Function.update_of_ne hji]
      exact (h.loops j hj hpend).keeps (hrows j).1 hkeep

theorem round_worker (hrows : ∀ i, (s.data i).end_row ≤ GRID_HEIGHT ∧ (s.data i).width = GRID_WIDTH)
    (h : Round s told fore back last) (hstep : workerStep s i = some t) :
    Round t told fore back last := by
  unfold workerStep at hstep
  split at hstep
  · rename_i hpc
    cases hstep
    exact h.move i .pausing true (by rw [hpc]; rfl)
  · rename_i hpc
    cases hstep
    exact h.move i .paused s.handled (by rw [hpc]; rfl)
  · exact absurd hstep (by simp only [reduceCtorEq, not_false_eq_true])
  · rename_i hpc
    cases hstep
    exact h.move i .pausing s.handled (by rw [hpc]; rfl)
  · rename_i pc hne hpc
    rcases Option.map_eq_some_iff.mp hstep with ⟨⟨mem', pc'⟩, hloop, rfl⟩
    exact h.loop hrows hpc hne hloop

/-- A signal that finds its thread in `pause` sends it into its loops. -/
theorem round_deliver (h : Round s told fore back last) (hok : s.worker i = .paused)
    (hstep : deliver s i = some t) : Round t told fore back last := by
  unfold deliver at hstep
  split_ifs at hstep with hpending hhandled
  · simp only [hok, Option.some.injEq] at hstep
    subst hstep
    refine
      { ne := h.ne
        source := h.source
        pointers := h.pointers
        waiting := fun j hj => ?_
        idle := fun j hj => ?_
        loops := fun j hj hpend => ?_ }
    · have hji : j ≠ i := by
        rintro rfl
        simp [State.setWorker] at hj
      simp only [State.setWorker, Function.update_of_ne hji] at hj ⊢
      exact h.waiting j hj
    · have hji : j ≠ i := by
        rintro rfl
        exact absurd (h.waiting j hpending).1 (Nat.not_lt_of_le hj)
      simp only [State.setWorker, Function.update_of_ne hji]
      exact h.idle j hj
    · by_cases hji : j = i
      · -- Before its first cell a thread has promised nothing.
        rw [hji]
        simp only [State.setWorker, Function.update_self]
        exact upTo_start (s.data i) last (s.mem back)
      · simp only [State.setWorker, Function.update_of_ne hji] at hpend ⊢
        exact h.loops j hj hpend
  · simp only [Option.some.injEq] at hstep
    subst hstep
    exact { h with }

/-- Storing pointers for a thread that has not been woken concerns nobody. -/
theorem Round.publish (h : Round s told fore back last) (i : Fin n) (hi : told ≤ i)
    (data : ThreadData) (pc : Main n) :
    Round { s with data := Function.update s.data i data, main := pc } told fore back last := by
  have hother : ∀ j : Fin n, j < told → Function.update s.data i data j = s.data j := by
    intro j hj
    refine Function.update_of_ne ?_ _ _
    rintro rfl
    exact absurd hj (Nat.not_lt_of_le hi)
  exact
    { ne := h.ne
      source := h.source
      pointers := fun j hj => by
        change (Function.update s.data i data j).foreground = _ ∧ _
        simp only [hother j hj]
        exact h.pointers j hj
      waiting := h.waiting
      idle := h.idle
      loops := fun j hj hpending => by
        simp only [hother j hj]
        exact h.loops j hj hpending }

/-- Waking a thread that has its pointers. -/
theorem Round.wake {i : Fin n} (h : Round s i fore back last)
    (hfore : (s.data i).foreground = some fore) (hback : (s.data i).background = some back)
    (pc : Main n) :
    Round { s with pending := Function.update s.pending i true, main := pc } (i + 1) fore back
      last := by
  refine
    { ne := h.ne
      source := h.source
      pointers := fun j hj => ?_
      waiting := fun j hj => ?_
      idle := fun j hj => h.idle j (by omega)
      loops := fun j hj hpending => ?_ }
  · by_cases hji : j = i
    · rw [hji]
      exact ⟨hfore, hback⟩
    · exact h.pointers j (by omega)
  · by_cases hji : j = i
    · rw [hji]
      exact ⟨Nat.lt_succ_self _, h.idle i (Nat.le_refl _)⟩
    · simp only [Function.update_of_ne hji] at hj
      exact ⟨Nat.lt_succ_of_lt (h.waiting j hj).1, (h.waiting j hj).2⟩
  · by_cases hji : j = i
    · -- The signal just sent is pending.
      rw [hji] at hpending
      simp only [Function.update_self, reduceCtorEq] at hpending
    · simp only [Function.update_of_ne hji] at hpending
      exact h.loops j (by omega) hpending

/-- When every thread has been woken and none is in its loops or about to be,
    the background is the next generation. -/
theorem Round.complete (hn : 0 < n) (h : Round s n fore back last)
    (hrows : ∀ i, (s.data i).start_row = (thread_data n i).start_row ∧
      (s.data i).end_row = (thread_data n i).end_row)
    (hok : ∀ i, (s.worker i).position = .finished ∧ s.pending i = false) (old : Grid) :
    s.mem back = update_grid last old := by
  refine eq_update_grid old fun y x hy hx => ?_
  rcases partition hn hy with ⟨i, ⟨hstart, hend⟩, _⟩
  have hloop := h.loops i i.isLt (hok i).2
  rw [(hok i).1] at hloop
  rw [← (hrows i).1] at hstart
  rw [← (hrows i).2] at hend
  exact hloop y x hstart hend hx (Or.inl hend)

end Rounds

section Runs

variable {s t : State n}

theorem inv_start (foreground background : Grid) : Inv (start n foreground background) where
  rows _ := ⟨rfl, rfl, rfl⟩
  ne := by
    change Buffer.first ≠ Buffer.second
    decide
  successive := List.isChain_nil
  round := Or.inl ⟨rfl, rfl, foreground,
    { ne := by
        change Buffer.first ≠ Buffer.second
        decide
      source := rfl
      pointers := fun i hi => absurd hi (Nat.not_lt_zero _)
      waiting := fun i hi => absurd hi (by simp only [start, reduceCtorEq, not_false_eq_true])
      idle := fun _ _ => rfl
      loops := fun i hi => absurd hi (Nat.not_lt_zero _) }⟩
  alive := ⟨rfl, fun i hi => absurd rfl hi⟩

/-- The rows of the threads are set before they are created. -/
theorem Inv.rows_le (h : Inv s) (i : Fin n) :
    (s.data i).end_row ≤ GRID_HEIGHT ∧ (s.data i).width = GRID_WIDTH := by
  rcases h.rows i with ⟨_, hend, hwidth⟩
  rw [hend]
  exact ⟨end_row_le i.isLt, hwidth⟩

/-- Storing a pointer leaves the rows alone. -/
theorem rows_update {i : Fin n} {data : ThreadData}
    (hrows : ∀ i, (s.data i).start_row = (thread_data n i).start_row ∧
      (s.data i).end_row = (thread_data n i).end_row ∧ (s.data i).width = GRID_WIDTH)
    (hsame : data.start_row = (s.data i).start_row ∧ data.end_row = (s.data i).end_row ∧
      data.width = (s.data i).width) (j : Fin n) :
    (Function.update s.data i data j).start_row = (thread_data n j).start_row ∧
      (Function.update s.data i data j).end_row = (thread_data n j).end_row ∧
      (Function.update s.data i data j).width = GRID_WIDTH := by
  by_cases hj : j = i
  · rw [hj, Function.update_self, hsame.1, hsame.2.1, hsame.2.2]
    exact hrows i
  · rw [Function.update_of_ne hj]
    exact hrows j

/-- What the threads and the signals leave to `main`. -/
structure Frame (s t : State n) : Prop where
  data_eq : t.data = s.data
  foreground_eq : t.foreground = s.foreground
  background_eq : t.background = s.background
  main_eq : t.main = s.main
  drawn_eq : t.drawn = s.drawn

theorem workerStep_frame {i : Fin n} (hstep : workerStep s i = some t) : Frame s t := by
  unfold workerStep at hstep
  split at hstep
  · cases hstep; exact ⟨rfl, rfl, rfl, rfl, rfl⟩
  · cases hstep; exact ⟨rfl, rfl, rfl, rfl, rfl⟩
  · cases hstep
  · cases hstep; exact ⟨rfl, rfl, rfl, rfl, rfl⟩
  · rcases Option.map_eq_some_iff.mp hstep with ⟨r, _, rfl⟩
    exact ⟨rfl, rfl, rfl, rfl, rfl⟩

theorem deliver_frame {i : Fin n} (hok : s.worker i = .paused) (hstep : deliver s i = some t) :
    Frame s t := by
  unfold deliver at hstep
  split_ifs at hstep
  · simp only [hok, Option.some.injEq] at hstep
    subst hstep
    exact ⟨rfl, rfl, rfl, rfl, rfl⟩
  · cases hstep
    exact ⟨rfl, rfl, rfl, rfl, rfl⟩

/-- Steps of the threads and signals keep the invariant if they keep the
    round, whoever is in it. -/
theorem Inv.frame (h : Inv s) (hframe : Frame s t)
    (hround : ∀ told fore back last, Round s told fore back last → Round t told fore back last)
    (halive : t.killed = false ∧ ∀ i, t.worker i ≠ .starting → t.handled = true) : Inv t := by
  refine
    { rows := by rw [hframe.data_eq]; exact h.rows
      ne := by rw [hframe.foreground_eq, hframe.background_eq]; exact h.ne
      successive := by rw [hframe.drawn_eq]; exact h.successive
      round := ?_
      alive := halive }
  rw [hframe.main_eq, hframe.drawn_eq, hframe.foreground_eq, hframe.background_eq]
  refine h.round.imp ?_ ?_
  · rintro ⟨hmain, hnil, first, hat⟩
    exact ⟨hmain, hnil, first, hround _ _ _ _ hat⟩
  rintro ⟨last, hlast, hat⟩
  refine ⟨last, hlast, ?_⟩
  unfold RoundAt at hat ⊢
  rw [hframe.main_eq, hframe.foreground_eq, hframe.background_eq, hframe.data_eq]
  cases hmain : s.main with
  | set_background i =>
      simp only [hmain] at hat ⊢
      exact ⟨hround _ _ _ _ hat.1, hat.2⟩
  | wake i =>
      simp only [hmain] at hat ⊢
      exact ⟨hround _ _ _ _ hat.1, hat.2⟩
  | _ =>
      simp only [hmain] at hat ⊢
      exact hround _ _ _ _ hat

/-- Past the first grid the position of `main` tells which round it is. -/
theorem Inv.roundAt (h : Inv s) (hmain : s.main ≠ .draw) :
    ∃ last ∈ s.drawn.getLast?, RoundAt s last :=
  h.round.resolve_left fun hfirst => hmain hfirst.1

/-- Drawing begins a new round. In time, the grid drawn is the next generation
    of the one drawn before. -/
theorem inv_draw (hn : 0 < n) (h : Inv s)
    (hok : ∀ i, (s.worker i).position = .finished ∧ s.pending i = false) (hmain : s.main = .draw) :
    Inv { s with drawn := s.drawn ++ [s.mem s.foreground], main := .set_foreground 0 } := by
  refine
    { rows := h.rows
      ne := h.ne
      successive := ?_
      round := Or.inr ⟨s.mem s.foreground, ?_, ?_⟩
      alive := h.alive }
  · refine List.isChain_append.mpr ⟨h.successive, List.isChain_singleton _, ?_⟩
    intro last hlast grid hgrid old
    rw [List.head?_singleton, Option.mem_some_iff] at hgrid
    rw [← hgrid]
    rcases h.round with ⟨_, hnil, _⟩ | ⟨last', hlast', hat⟩
    · rw [hnil] at hlast
      exact absurd hlast (by simp)
    · rw [Option.mem_unique hlast hlast']
      unfold RoundAt at hat
      rw [hmain] at hat
      exact hat.complete hn (fun i => ⟨(h.rows i).1, (h.rows i).2.1⟩) hok old
  · rw [List.getLast?_append]
    rfl
  · exact
      { ne := h.ne
        source := rfl
        pointers := fun i hi => absurd hi (Nat.not_lt_zero _)
        waiting := fun i hi => absurd ((hok i).2.symm.trans hi) (by decide)
        idle := fun i _ => (hok i).1
        loops := fun i hi => absurd hi (Nat.not_lt_zero _) }

/-- When every thread has been told, it does not matter how many they are. -/
theorem Round.all {told : Nat} {fore back : Buffer} {last : Grid}
    (h : Round s told fore back last) (hall : n ≤ told) (pc : Main n) :
    Round { s with main := pc } n fore back last where
  ne := h.ne
  source := h.source
  pointers i _ := h.pointers i (by omega)
  waiting i hi := ⟨i.isLt, (h.waiting i hi).2⟩
  idle i hi := absurd i.isLt (Nat.not_lt_of_le hi)
  loops i _ := h.loops i (by omega)

theorem inv_main (hn : 0 < n) (h : Inv s) (hok : InTime s .main) : Inv (mainStep s) := by
  unfold InTime at hok
  by_cases hdraw : s.main = .draw
  · simp only [hdraw] at hok
    simp only [mainStep, hdraw]
    exact inv_draw hn h hok hdraw
  -- Anywhere else a round is going on.
  rcases h.roundAt hdraw with ⟨last, hlast, hat⟩
  cases hmain : s.main with
  | draw => exact absurd hmain hdraw
  | set_foreground i =>
      simp only [RoundAt, hmain] at hat
      simp only [mainStep, hmain]
      split_ifs with hi
      · exact
          { rows := rows_update h.rows ⟨rfl, rfl, rfl⟩
            ne := h.ne
            successive := h.successive
            round := Or.inr ⟨last, hlast, hat.publish ⟨i, hi⟩ (Nat.le_refl _) _ _, by
              simp only [Function.update_self]⟩
            alive := h.alive }
      · exact ⟨h.rows, h.ne, h.successive, Or.inr ⟨last, hlast, hat.all (Nat.le_of_not_lt hi) _⟩,
          h.alive⟩
  | set_background i =>
      simp only [RoundAt, hmain] at hat
      simp only [mainStep, hmain]
      exact
        { rows := rows_update h.rows ⟨rfl, rfl, rfl⟩
          ne := h.ne
          successive := h.successive
          round := Or.inr ⟨last, hlast, hat.1.publish i (Nat.le_refl _) _ _, by
            simp only [Function.update_self]
            exact hat.2, by simp only [Function.update_self]⟩
          alive := h.alive }
  | wake i =>
      simp only [RoundAt, hmain] at hat
      simp only [mainStep, hmain]
      exact ⟨h.rows, h.ne, h.successive, Or.inr ⟨last, hlast, hat.1.wake hat.2.1 hat.2.2 _⟩,
        h.alive⟩
  | sleep =>
      simp only [RoundAt, hmain] at hat
      simp only [mainStep, hmain]
      exact ⟨h.rows, h.ne, h.successive, Or.inr ⟨last, hlast, hat.all (Nat.le_refl _) _⟩, h.alive⟩
  | swap =>
      simp only [RoundAt, hmain] at hat
      simp only [mainStep, hmain]
      -- The threads go on with the pointers they have; only `main`'s names change.
      exact ⟨h.rows, h.ne.symm, h.successive, Or.inr ⟨last, hlast, { hat with }⟩, h.alive⟩

/-- Installing the handler is the first thing a thread does. -/
theorem workerStep_alive {i : Fin n} (h : Inv s) (hstep : workerStep s i = some t) :
    t.killed = false ∧ ∀ i, t.worker i ≠ .starting → t.handled = true := by
  unfold workerStep at hstep
  split at hstep
  · cases hstep
    exact ⟨h.alive.1, fun _ _ => rfl⟩
  · rename_i hpc
    cases hstep
    exact ⟨h.alive.1, fun _ _ => h.alive.2 i (by rw [hpc]; exact Worker.noConfusion)⟩
  · cases hstep
  · rename_i hpc
    cases hstep
    exact ⟨h.alive.1, fun _ _ => h.alive.2 i (by rw [hpc]; exact Worker.noConfusion)⟩
  · rename_i pc _ hpc
    rcases Option.map_eq_some_iff.mp hstep with ⟨r, _, rfl⟩
    exact ⟨h.alive.1, fun _ _ => h.alive.2 i (by rw [hpc]; exact Worker.noConfusion)⟩

theorem deliver_alive {i : Fin n} (h : Inv s) (hok : s.worker i = .paused)
    (hstep : deliver s i = some t) :
    t.killed = false ∧ ∀ i, t.worker i ≠ .starting → t.handled = true := by
  have hhandled := h.alive.2 i (by rw [hok]; exact Worker.noConfusion)
  unfold deliver at hstep
  rw [if_pos hhandled] at hstep
  split_ifs at hstep
  simp only [hok, Option.some.injEq] at hstep
  rw [← hstep]
  exact ⟨h.alive.1, fun _ _ => hhandled⟩

theorem inv_step (hn : 0 < n) {e : Event n} (h : Inv s) (hok : InTime s e)
    (hstep : step s e = some t) : Inv t := by
  unfold step at hstep
  split_ifs at hstep
  cases e with
  | main =>
      simp only [Option.some.injEq] at hstep
      rw [← hstep]
      exact inv_main hn h hok
  | worker i =>
      exact h.frame (workerStep_frame hstep) (fun _ _ _ _ hround =>
        round_worker h.rows_le hround hstep) (workerStep_alive h hstep)
  | deliver i =>
      exact h.frame (deliver_frame hok hstep) (fun _ _ _ _ hround =>
        round_deliver hround hok hstep) (deliver_alive h hok hstep)

end Runs

section Progress

variable {s t : State n}

/-- The most steps a thread has left in its loops, and the delivery. -/
def roundSteps : Nat := 12 * (GRID_HEIGHT * (GRID_WIDTH + 1) + GRID_WIDTH) + 2

/-- The steps a thread has left until it is in `pause`. -/
def Worker.toPause : Worker → Nat
  | .starting => 2
  | .pausing => 1
  | .paused => 0
  | .looping _ => 2

/-- The steps thread `i` has left until its round is done, at most. -/
def threadLeft (s : State n) (i : Fin n) : Nat :=
  (if s.pending i then roundSteps + (s.worker i).toPause else 0) +
    (s.worker i).position.left (thread_data n i)

/-- The steps `main` has left until it draws. -/
def Main.left : Main n → Nat
  | .draw => 0
  | .set_foreground i => 3 * (n - i) + 3
  | .set_background i => 3 * (n - i) + 2
  | .wake i => 3 * (n - i) + 1
  | .sleep => 2
  | .swap => 1

/-- The steps left until the next grid is drawn, at most. A step of `main` may
    send one thread through a round. -/
def left (s : State n) : Nat := s.main.left * (roundSteps + 3) + ∑ i, threadLeft s i

/-- The number of steps left depends on the rows alone. -/
theorem left_congr {data data' : ThreadData} (hend : data.end_row = data'.end_row)
    (hwidth : data.width = data'.width) (pc : Loop) : pc.left data = pc.left data' := by
  cases pc <;> simp only [Loop.left, hend, hwidth]

/-- A round is at most the whole grid. -/
theorem left_start (i : Fin n) :
    (Loop.cell (thread_data n i).start_row 0).left (thread_data n i) < roundSteps := by
  have hend := end_row_le i.isLt
  have hrows : ((thread_data n i).end_row - (thread_data n i).start_row) * (GRID_WIDTH + 1)
      ≤ GRID_HEIGHT * (GRID_WIDTH + 1) := Nat.mul_le_mul_right _ (by omega)
  have hwidth : (thread_data n i).width = GRID_WIDTH := rfl
  simp only [Loop.left, hwidth, roundSteps]
  omega

/-- If only thread `i` has moved, and has fewer steps left, so has the
    program. -/
theorem left_lt {i : Fin n} (hmain : t.main = s.main)
    (hother : ∀ j, j ≠ i → threadLeft t j = threadLeft s j)
    (hless : threadLeft t i < threadLeft s i) : left t < left s := by
  have hsum : ∑ j, threadLeft t j < ∑ j, threadLeft s j := by
    refine Finset.sum_lt_sum (fun j _ => ?_) ⟨i, Finset.mem_univ i, hless⟩
    by_cases hj : j = i
    · rw [hj]
      exact Nat.le_of_lt hless
    · exact Nat.le_of_eq (hother j hj)
  unfold left
  rw [hmain]
  exact Nat.add_lt_add_left hsum _

/-- A thread that moves on with the same signals. -/
theorem left_setWorker {i : Fin n} (pc : Worker) (hworker : t.worker = Function.update s.worker i pc)
    (hpending : t.pending = s.pending) (hmain : t.main = s.main)
    (hless : (if s.pending i then roundSteps + pc.toPause else 0)
        + pc.position.left (thread_data n i) < threadLeft s i) : left t < left s := by
  refine left_lt hmain (fun j hj => ?_) (i := i) ?_
  · simp only [threadLeft, hworker, hpending, Function.update_of_ne hj]
  · simp only [threadLeft, hworker, hpending, Function.update_self]
    exact hless

/-- A thread in its loops goes on. -/
theorem progress_looping {told : Nat} {fore back : Buffer} {last : Grid} (h : Inv s)
    (hround : Round s told fore back last) {i : Fin n}
    (hpc : (s.worker i).position ≠ .finished) :
    ∃ e t, InTime s e ∧ step s e = some t ∧ t.drawn = s.drawn ∧ left t < left s := by
  rcases hround.running hpc with ⟨htold, hpending⟩
  cases hworker : s.worker i with
  | looping pc =>
      have hposition : (s.worker i).position = pc := by rw [hworker]; rfl
      rw [hposition] at hpc
      rcases loopStep_left (hround.pointers i htold).1 (hround.pointers i htold).2 s.mem hpc with
        ⟨r, hr, hless⟩
      have hthread : workerStep s i = some { s.setWorker i (.looping r.2) with mem := r.1 } := by
        unfold workerStep
        rw [hworker]
        cases pc with
        | finished => exact absurd rfl hpc
        | _ => simp only [hr, Option.map_some]
      have hstep : step s (.worker i) = workerStep s i := by
        rw [step, h.alive.1]
        rfl
      refine ⟨.worker i, _, trivial, hstep.trans hthread, rfl, ?_⟩
      refine left_setWorker (.looping r.2) rfl rfl rfl ?_
      rw [left_congr (h.rows i).2.1 (h.rows i).2.2, left_congr (h.rows i).2.1 (h.rows i).2.2]
        at hless
      simp only [threadLeft, hpending, hworker, Worker.position, Bool.false_eq_true, if_false]
      exact Nat.add_lt_add_left hless _
  | _ => exact absurd (by rw [hworker]; rfl) hpc

/-- A thread whose signal is pending goes on to `pause`, and there the signal is
    delivered. -/
theorem progress_pending {told : Nat} {fore back : Buffer} {last : Grid} (h : Inv s)
    (hround : Round s told fore back last) {i : Fin n} (hpending : s.pending i = true) :
    ∃ e t, InTime s e ∧ step s e = some t ∧ t.drawn = s.drawn ∧ left t < left s := by
  have hstep : ∀ i, step s (.worker i) = workerStep s i := fun i => by rw [step, h.alive.1]; rfl
  have hposition := (hround.waiting i hpending).2
  cases hworker : s.worker i with
  | starting =>
      have hthread : workerStep s i = some { s.setWorker i .pausing with handled := true } := by
        rw [workerStep, hworker]
      refine ⟨.worker i, _, trivial, (hstep i).trans hthread, rfl, ?_⟩
      refine left_setWorker .pausing rfl rfl rfl ?_
      rw [threadLeft, hpending, hworker]
      exact Nat.lt_succ_self _
  | pausing =>
      have hthread : workerStep s i = some (s.setWorker i .paused) := by rw [workerStep, hworker]
      refine ⟨.worker i, _, trivial, (hstep i).trans hthread, rfl, ?_⟩
      refine left_setWorker .paused rfl rfl rfl ?_
      rw [threadLeft, hpending, hworker]
      exact Nat.lt_succ_self _
  | paused =>
      have hhandled := h.alive.2 i (by rw [hworker]; exact Worker.noConfusion)
      have hdeliver : step s (.deliver i) = some
          { s.setWorker i (.looping (.cell (s.data i).start_row 0)) with
            pending := Function.update s.pending i false } := by
        rw [step, h.alive.1, if_neg Bool.false_ne_true]
        simp only [deliver, hpending, hhandled, hworker, if_true, State.setWorker]
      refine ⟨.deliver i, _, hworker, hdeliver, rfl, left_lt rfl (fun j hj => ?_) (i := i) ?_⟩
      · simp only [threadLeft, State.setWorker, Function.update_of_ne hj]
      · -- The whole round is less than what was reserved for it.
        have hstart := left_start i
        rw [← (h.rows i).1] at hstart
        simp only [threadLeft, State.setWorker, Function.update_self, hpending, if_true,
          Bool.false_eq_true, if_false, Worker.position]
        omega
  | looping pc =>
      rw [hworker] at hposition
      have hthread : workerStep s i = some (s.setWorker i .pausing) := by
        rw [workerStep, hworker, show pc = .finished from hposition]
      refine ⟨.worker i, _, trivial, (hstep i).trans hthread, rfl, ?_⟩
      refine left_setWorker .pausing rfl rfl rfl ?_
      rw [threadLeft, hpending, hworker, hposition]
      exact Nat.lt_succ_self _

/-- A step of `main` leaves it one step fewer, and may send one thread through
    a round. -/
theorem left_main (hmain : t.main.left + 1 = s.main.left)
    (hthreads : ∑ i, threadLeft t i < ∑ i, threadLeft s i + (roundSteps + 3)) :
    left t < left s := by
  unfold left
  rw [← hmain, Nat.succ_mul]
  omega

/-- The signal `main` sends. -/
theorem threads_wake (s : State n) (i : Fin n) (pc : Main n) :
    ∑ j, threadLeft { s with pending := Function.update s.pending i true, main := pc } j
      < ∑ j, threadLeft s j + (roundSteps + 3) := by
  have hle : ∀ j, threadLeft
      { s with pending := Function.update s.pending i true, main := pc } j
        ≤ threadLeft s j + if j = i then roundSteps + 2 else 0 := by
    intro j
    by_cases hj : j = i
    · have hpause : (s.worker j).toPause ≤ 2 := by
        cases s.worker j <;> simp only [Worker.toPause] <;> omega
      rw [hj] at hpause ⊢
      simp only [threadLeft, Function.update_self, if_true]
      omega
    · simp only [threadLeft, Function.update_of_ne hj, if_neg hj]
      omega
  have hsum := Finset.sum_le_sum fun j (_ : j ∈ Finset.univ) => hle j
  rw [Finset.sum_add_distrib, Finset.sum_ite_eq' Finset.univ i,
    if_pos (Finset.mem_univ i)] at hsum
  omega

/-- `main` goes on until it draws. -/
theorem progress_main (h : Inv s) (hmain : s.main ≠ .draw) :
    ∃ e t, InTime s e ∧ step s e = some t ∧ t.drawn = s.drawn ∧ left t < left s := by
  have hstep : step s .main = some (mainStep s) := by rw [step, h.alive.1]; rfl
  have hok : InTime s .main := by
    unfold InTime
    cases hpc : s.main with
    | draw => exact absurd hpc hmain
    | _ => trivial
  refine ⟨.main, _, hok, hstep, ?_⟩
  -- Pointers do not change what the threads have left.
  have hsame : ∀ t : State n, t.worker = s.worker → t.pending = s.pending →
      ∑ j, threadLeft t j < ∑ j, threadLeft s j + (roundSteps + 3) := by
    intro t hworker hpending
    simp only [threadLeft, hworker, hpending]
    omega
  cases hpc : s.main with
  | draw => exact absurd hpc hmain
  | set_foreground i =>
      simp only [mainStep, hpc]
      split_ifs with hi
      · refine ⟨rfl, left_main ?_ (hsame _ rfl rfl)⟩
        rw [hpc]
        simp only [Main.left]
      · refine ⟨rfl, left_main ?_ (hsame _ rfl rfl)⟩
        rw [hpc]
        simp only [Main.left]
        omega
  | set_background i =>
      simp only [mainStep, hpc]
      refine ⟨trivial, left_main ?_ (hsame _ rfl rfl)⟩
      rw [hpc]
      simp only [Main.left]
  | wake i =>
      simp only [mainStep, hpc]
      refine ⟨trivial, left_main ?_ (threads_wake s i _)⟩
      rw [hpc]
      simp only [Main.left]
      omega
  | sleep =>
      simp only [mainStep, hpc]
      refine ⟨trivial, left_main ?_ (hsame _ rfl rfl)⟩
      rw [hpc]
      rfl
  | swap =>
      simp only [mainStep, hpc]
      refine ⟨trivial, left_main ?_ (hsame _ rfl rfl)⟩
      rw [hpc]
      rfl

/-- The round that is going on, whatever `main` is at. -/
theorem Inv.exists_round (h : Inv s) : ∃ told fore back last, Round s told fore back last := by
  rcases h.round with ⟨_, _, first, hat⟩ | ⟨last, _, hat⟩
  · exact ⟨_, _, _, _, hat⟩
  · unfold RoundAt at hat
    split at hat
    · exact ⟨_, _, _, _, hat⟩
    · exact ⟨_, _, _, _, hat⟩
    · exact ⟨_, _, _, _, hat.1⟩
    · exact ⟨_, _, _, _, hat.1⟩
    · exact ⟨_, _, _, _, hat⟩
    · exact ⟨_, _, _, _, hat⟩

/-- From every state steps that are in time lead to the next grid drawn. -/
theorem next_draw (hn : 0 < n) (h : Inv s) :
    ∃ t, Reaches step InTime s t ∧ t.drawn.length = s.drawn.length + 1 := by
  have hnext : ∀ u : State n, (Inv u ∧ u.drawn = s.drawn) →
      ¬ (u.main = .draw ∧ ∀ i, (u.worker i).position = .finished ∧ u.pending i = false) →
      ∃ e t, InTime u e ∧ step u e = some t ∧ (Inv t ∧ t.drawn = s.drawn) ∧ left t < left u := by
    rintro u ⟨hu, hdrawn⟩ hnot
    rcases hu.exists_round with ⟨told, fore, back, last, hround⟩
    have hmove : ∃ e t, InTime u e ∧ step u e = some t ∧ t.drawn = u.drawn ∧ left t < left u := by
      by_cases hloop : ∃ i, (u.worker i).position ≠ .finished
      · rcases hloop with ⟨i, hi⟩
        exact progress_looping hu hround hi
      by_cases hpend : ∃ i, u.pending i = true
      · rcases hpend with ⟨i, hi⟩
        exact progress_pending hu hround hi
      -- Nobody else has anything to do, so `main` is not yet where it draws.
      refine progress_main hu fun hmain => hnot ⟨hmain, fun i => ⟨?_, ?_⟩⟩
      · by_contra hne
        exact hloop ⟨i, hne⟩
      · exact Bool.eq_false_iff.mpr fun hi => hpend ⟨i, hi⟩
    rcases hmove with ⟨e, t, hok, hstep, hsame, hless⟩
    exact ⟨e, t, hok, hstep, ⟨inv_step hn hu hok hstep, hsame.trans hdrawn⟩, hless⟩
  rcases reaches_goal left hnext (left s) s ⟨h, rfl⟩ (Nat.le_refl _) with
    ⟨u, hreach, ⟨hu, hdrawn⟩, hmain, hidle⟩
  have hok : InTime u .main := by
    unfold InTime
    rw [hmain]
    exact hidle
  have hstep : step u .main = some (mainStep u) := by rw [step, hu.alive.1]; rfl
  refine ⟨_, Reaches.step _ _ _ hreach hok hstep, ?_⟩
  simp only [mainStep, hmain, List.length_append, List.length_singleton, hdrawn]

end Progress

section Results

/-- As long as every signal finds its thread in `pause` and the threads are done
    when the next grid is drawn, every grid drawn after the first is the next
    generation of the one before, and there is always a way to go on like
    that. -/
theorem draws_successive (arg : Nat) (foreground background : Grid) (s : State (n_threads arg))
    (harg : 1 ≤ arg)
    (hreach : Reaches step InTime (start (n_threads arg) foreground background) s) :
    Successive s.drawn ∧
      ∃ t, Reaches step InTime s t ∧ t.drawn.length = s.drawn.length + 1 := by
  have hn := n_threads_pos harg
  have h : Inv s := hreach.invariant (inv_start foreground background)
    fun _ _ _ hv hok hstep => inv_step hn hv hok hstep
  exact ⟨h.successive, next_draw hn h⟩

/-- Three threads, and two grids drawn. -/
theorem draws_successive_three :
    ∃ s, Reaches step InTime (start (n_threads 3) block (CharArray.zero _)) s ∧
      s.drawn.length = 2 ∧ Successive s.drawn := by
  have hinv : ∀ s, Reaches step InTime (start (n_threads 3) block (CharArray.zero _)) s →
      Successive s.drawn ∧ ∃ t, Reaches step InTime s t ∧ t.drawn.length = s.drawn.length + 1 :=
    fun s hreach => draws_successive 3 block (CharArray.zero _) s (by decide) hreach
  rcases (hinv _ Reaches.refl).2 with ⟨s, hfirst, hone⟩
  rcases (hinv s hfirst).2 with ⟨t, hsecond, htwo⟩
  have hreach := hfirst.trans hsecond
  exact ⟨t, hreach, by rw [htwo, hone]; rfl, (hinv t hreach).1⟩

/-- The only thread installs its handler, and is interrupted before it calls
    `pause`. -/
def early : List (Event (n_threads 1)) :=
  [.main, .main, .main, .main, .worker ⟨0, by decide⟩, .deliver ⟨0, by decide⟩, .main, .main, .main,
    .main]

/-- The signal is lost, and `main` draws the background as it was. -/
theorem signal_before_pause :
    ¬ ∀ arg, 1 ≤ arg → ∀ foreground background (s : State (n_threads arg)),
      Reachable step (start (n_threads arg) foreground background) s → Successive s.drawn := by
  intro hclaim
  have hend : (run step (start (n_threads 1) block (CharArray.zero _)) early).map State.drawn
      = some [block, CharArray.zero _] := by rfl
  rcases Option.map_eq_some_iff.mp hend with ⟨s, hrun, hdrawn⟩
  have hsuccessive := hclaim 1 (Nat.le_refl 1) block (CharArray.zero _) s (reachable_of_run hrun)
  rw [hdrawn, Successive, List.isChain_cons_cons] at hsuccessive
  -- A corner of the block would be dead.
  have hright := right_update_grid block (CharArray.zero _) (y := 0) (x := 0) (by decide) (by decide)
  rw [Right, ← hsuccessive.1] at hright
  exact absurd hright (by decide +kernel)

end Results

end Lab8

end OsLabs
