import OsLabs.Core.Ring
import OsLabs.Core.Run
import OsLabs.Core.Table

/-!
# A Buffer Between Producers and Consumers

`kolos/kwolos/kw/zad3` as a transition system. Threads of two kinds share a
circular buffer. A producer waits for `empty`, locks the mutex, stores its item
at `in`, moves `in` on, unlocks, sleeps and posts `full`. A consumer goes the
same way with `full`, `out` and `empty`. Both take the same six steps per item,
so a thread of either kind is a stage and a number of rounds; what the kinds
do at a stage differs. Sleeping and printing are no steps of their own.

The numbers of threads, the rounds of each thread and the size of the buffer
are parameters. The last two components of the state are history: the items
stored and the items taken, in order.

A step of the argument each: the semaphores and the threads on their way add up
to the size of the buffer (`slots`) and tell how many items wait (`items`);
only the thread with the mutex may be between its access and moving on, so the
position is the number of accesses up to that one; hence a store never meets
an item that waits, and a take always meets the oldest one.

## Main definitions

* `Stage`, `Thread`: Where a thread stands.
* `State`, `Event`, `step`, `start`: The transition system.
* `ProducerMove`, `ConsumerMove`: What a step of a thread does.
* `Sound`: The invariant.

## Theorems

* `producer_moves`, `consumer_moves`: Every step of a thread is such a move.
* `counts_producer`, `counts_consumer`, `placed_producer`, `placed_consumer`: A
  move keeps the invariant.
* `all_finished`: If nobody can go on, everybody has finished.
* `buffer_fifo`: Order, capacity and progress.
* `buffer_fifo_run`: One item of each of two producers.
-/

namespace OsLabs

namespace Kolos

namespace Buffer

/-- Where a thread stands in the body of its loop. -/
inductive Stage
  /-- At the head of the loop, with `sem_wait` next. -/
  | ready
  /-- Past `sem_wait`; the lock is next. -/
  | entered
  /-- With the mutex; the access to the buffer is next. -/
  | locked
  /-- `in` or `out` is moved on next. -/
  | accessed
  /-- The unlock is next. -/
  | advanced
  /-- `sem_post` is next. -/
  | unlocked
  deriving DecidableEq

/-- A thread: its stage, and the rounds it has completed. -/
structure Thread where
  stage : Stage
  i : Nat
  deriving DecidableEq

structure State (producers consumers BufferSize : Nat) where
  empty : Nat
  full : Nat
  buffer : Fin BufferSize → Int
  in_ : Fin BufferSize
  out : Fin BufferSize
  mutex : Bool
  producer : Fin producers → Thread
  consumer : Fin consumers → Thread
  /-- The items stored, in order. -/
  inserted : List Int
  /-- The items taken, in order. -/
  removed : List Int

inductive Event (producers consumers : Nat)
  | producer (p : Fin producers)
  | consumer (c : Fin consumers)

/-- What the threads are told: the number of each producer, and the items each
    thread is to handle. -/
structure Task (producers consumers : Nat) where
  id : Fin producers → Int
  MaxItems_producer : Fin producers → Nat
  MaxItems_consumer : Fin consumers → Nat

variable {producers consumers BufferSize : Nat}

def State.setProducer (s : State producers consumers BufferSize) (p : Fin producers)
    (stage : Stage) (i : Nat) : State producers consumers BufferSize :=
  { s with producer := Function.update s.producer p { stage := stage, i := i } }

def State.setConsumer (s : State producers consumers BufferSize) (c : Fin consumers)
    (stage : Stage) (i : Nat) : State producers consumers BufferSize :=
  { s with consumer := Function.update s.consumer c { stage := stage, i := i } }

/-- The next step of a producer. -/
def producer (task : Task producers consumers) (s : State producers consumers BufferSize)
    (p : Fin producers) : Option (State producers consumers BufferSize) :=
  let i := (s.producer p).i
  match (s.producer p).stage with
  | .ready =>
    if i < task.MaxItems_producer p ∧ 0 < s.empty then
      some { s.setProducer p .entered i with empty := s.empty - 1 }
    else none
  | .entered => if s.mutex then none else some { s.setProducer p .locked i with mutex := true }
  | .locked =>
    let item := 10 * task.id p + i
    some { s.setProducer p .accessed i with
      buffer := Function.update s.buffer s.in_ item
      inserted := s.inserted ++ [item] }
  | .accessed => some { s.setProducer p .advanced i with in_ := nextSlot s.in_ }
  | .advanced => some { s.setProducer p .unlocked i with mutex := false }
  -- The post comes after the mutex has been given back.
  | .unlocked => some { s.setProducer p .ready (i + 1) with full := s.full + 1 }

/-- The next step of a consumer. -/
def consumer (task : Task producers consumers) (s : State producers consumers BufferSize)
    (c : Fin consumers) : Option (State producers consumers BufferSize) :=
  let i := (s.consumer c).i
  match (s.consumer c).stage with
  | .ready =>
    if i < task.MaxItems_consumer c ∧ 0 < s.full then
      some { s.setConsumer c .entered i with full := s.full - 1 }
    else none
  | .entered => if s.mutex then none else some { s.setConsumer c .locked i with mutex := true }
  | .locked =>
    some { s.setConsumer c .accessed i with removed := s.removed ++ [s.buffer s.out] }
  | .accessed => some { s.setConsumer c .advanced i with out := nextSlot s.out }
  | .advanced => some { s.setConsumer c .unlocked i with mutex := false }
  | .unlocked => some { s.setConsumer c .ready (i + 1) with empty := s.empty + 1 }

def step (task : Task producers consumers) (s : State producers consumers BufferSize) :
    Event producers consumers → Option (State producers consumers BufferSize)
  | .producer p => producer task s p
  | .consumer c => consumer task s c

/-- The state in which `main` creates the threads. -/
def start (producers consumers BufferSize : Nat) (hsize : 0 < BufferSize) :
    State producers consumers BufferSize where
  empty := BufferSize
  full := 0
  buffer _ := 0
  in_ := ⟨0, hsize⟩
  out := ⟨0, hsize⟩
  mutex := false
  producer _ := { stage := .ready, i := 0 }
  consumer _ := { stage := .ready, i := 0 }
  inserted := []
  removed := []

/-- Past `sem_wait`, before the access. -/
def Thread.before (t : Thread) : Nat :=
  match t.stage with
  | .entered => 1
  | .locked => 1
  | _ => 0

/-- Past the access, before `sem_post`. -/
def Thread.after (t : Thread) : Nat :=
  match t.stage with
  | .accessed => 1
  | .advanced => 1
  | .unlocked => 1
  | _ => 0

/-- Between the access and the moving on. -/
def Thread.pending (t : Thread) : Nat :=
  match t.stage with
  | .accessed => 1
  | _ => 0

/-- With the mutex, before the access or after the moving on. -/
def Thread.aside (t : Thread) : Nat :=
  match t.stage with
  | .locked => 1
  | .advanced => 1
  | _ => 0

/-- The accesses the thread has made. -/
def Thread.accesses (t : Thread) : Nat := t.i + t.after

/-- The thread has handled all its items. -/
def Thread.finished (t : Thread) (MaxItems : Nat) : Prop := t.stage = .ready ∧ MaxItems ≤ t.i

/-- A thread handles no more than its items. -/
def Thread.within (t : Thread) (MaxItems : Nat) : Prop :=
  t.i ≤ MaxItems ∧ (t.stage ≠ .ready → t.i < MaxItems)

/-- What the semaphores, the mutex and the threads on their way add up to. -/
structure Counts (s : State producers consumers BufferSize) : Prop where
  mutex : total Thread.pending s.producer + total Thread.aside s.producer +
    total Thread.pending s.consumer + total Thread.aside s.consumer = s.mutex.toNat
  slots : s.empty + total Thread.before s.producer + total Thread.after s.producer + s.full +
    total Thread.before s.consumer + total Thread.after s.consumer = BufferSize
  items : s.inserted.length = s.removed.length + s.full + total Thread.after s.producer +
    total Thread.before s.consumer
  made : total Thread.accesses s.producer = s.inserted.length
  used : total Thread.accesses s.consumer = s.removed.length

/-- Nobody handles more than its items. -/
structure Within (task : Task producers consumers) (s : State producers consumers BufferSize) :
    Prop where
  producer : ∀ p, (s.producer p).within (task.MaxItems_producer p)
  consumer : ∀ c, (s.consumer c).within (task.MaxItems_consumer c)

/-- The positions count the accesses, and the buffer holds what waits. -/
structure Placed (hsize : 0 < BufferSize) (s : State producers consumers BufferSize) : Prop where
  in_ : s.in_ = circular BufferSize hsize (s.inserted.length - total Thread.pending s.producer)
  out : s.out = circular BufferSize hsize (s.removed.length - total Thread.pending s.consumer)
  logged : Logged (circular BufferSize hsize) s.buffer s.removed s.inserted

/-- A move of a producer whose thread is at the stage named. -/
inductive ProducerMove (task : Task producers consumers)
    (s : State producers consumers BufferSize) (p : Fin producers) :
    State producers consumers BufferSize → Prop
  | wait (i : Nat) (hpc : s.producer p = ⟨.ready, i⟩) (hmore : i < task.MaxItems_producer p)
      (hempty : 0 < s.empty) :
      ProducerMove task s p { s.setProducer p .entered i with empty := s.empty - 1 }
  | lock (i : Nat) (hpc : s.producer p = ⟨.entered, i⟩) (hmutex : s.mutex = false) :
      ProducerMove task s p { s.setProducer p .locked i with mutex := true }
  | store (i : Nat) (hpc : s.producer p = ⟨.locked, i⟩) :
      ProducerMove task s p { s.setProducer p .accessed i with
        buffer := Function.update s.buffer s.in_ (10 * task.id p + i)
        inserted := s.inserted ++ [10 * task.id p + (i : Int)] }
  | advance (i : Nat) (hpc : s.producer p = ⟨.accessed, i⟩) :
      ProducerMove task s p { s.setProducer p .advanced i with in_ := nextSlot s.in_ }
  | unlock (i : Nat) (hpc : s.producer p = ⟨.advanced, i⟩) :
      ProducerMove task s p { s.setProducer p .unlocked i with mutex := false }
  | post (i : Nat) (hpc : s.producer p = ⟨.unlocked, i⟩) :
      ProducerMove task s p { s.setProducer p .ready (i + 1) with full := s.full + 1 }

/-- A move of a consumer. -/
inductive ConsumerMove (task : Task producers consumers)
    (s : State producers consumers BufferSize) (c : Fin consumers) :
    State producers consumers BufferSize → Prop
  | wait (i : Nat) (hpc : s.consumer c = ⟨.ready, i⟩) (hmore : i < task.MaxItems_consumer c)
      (hfull : 0 < s.full) :
      ConsumerMove task s c { s.setConsumer c .entered i with full := s.full - 1 }
  | lock (i : Nat) (hpc : s.consumer c = ⟨.entered, i⟩) (hmutex : s.mutex = false) :
      ConsumerMove task s c { s.setConsumer c .locked i with mutex := true }
  | take (i : Nat) (hpc : s.consumer c = ⟨.locked, i⟩) :
      ConsumerMove task s c { s.setConsumer c .accessed i with
        removed := s.removed ++ [s.buffer s.out] }
  | advance (i : Nat) (hpc : s.consumer c = ⟨.accessed, i⟩) :
      ConsumerMove task s c { s.setConsumer c .advanced i with out := nextSlot s.out }
  | unlock (i : Nat) (hpc : s.consumer c = ⟨.advanced, i⟩) :
      ConsumerMove task s c { s.setConsumer c .unlocked i with mutex := false }
  | post (i : Nat) (hpc : s.consumer c = ⟨.unlocked, i⟩) :
      ConsumerMove task s c { s.setConsumer c .ready (i + 1) with empty := s.empty + 1 }

section Moves

variable {task : Task producers consumers} {s s' : State producers consumers BufferSize}

theorem producer_moves {p : Fin producers} (hstep : producer task s p = some s') :
    ProducerMove task s p s' := by
  unfold producer at hstep
  cases hpc : s.producer p with
  | mk stage i =>
      simp only [hpc] at hstep
      cases stage with
      | ready =>
          simp only [Option.ite_none_right_eq_some] at hstep
          rcases hstep with ⟨⟨hmore, hempty⟩, hs'⟩
          rw [← Option.some.inj hs']
          exact ProducerMove.wait i hpc hmore hempty
      | entered =>
          simp only [Option.ite_none_left_eq_some, Bool.not_eq_true] at hstep
          rw [← Option.some.inj hstep.2]
          exact ProducerMove.lock i hpc hstep.1
      | locked =>
          rw [← Option.some.inj hstep]
          exact ProducerMove.store i hpc
      | accessed =>
          rw [← Option.some.inj hstep]
          exact ProducerMove.advance i hpc
      | advanced =>
          rw [← Option.some.inj hstep]
          exact ProducerMove.unlock i hpc
      | unlocked =>
          rw [← Option.some.inj hstep]
          exact ProducerMove.post i hpc

theorem consumer_moves {c : Fin consumers} (hstep : consumer task s c = some s') :
    ConsumerMove task s c s' := by
  unfold consumer at hstep
  cases hpc : s.consumer c with
  | mk stage i =>
      simp only [hpc] at hstep
      cases stage with
      | ready =>
          simp only [Option.ite_none_right_eq_some] at hstep
          rcases hstep with ⟨⟨hmore, hfull⟩, hs'⟩
          rw [← Option.some.inj hs']
          exact ConsumerMove.wait i hpc hmore hfull
      | entered =>
          simp only [Option.ite_none_left_eq_some, Bool.not_eq_true] at hstep
          rw [← Option.some.inj hstep.2]
          exact ConsumerMove.lock i hpc hstep.1
      | locked =>
          rw [← Option.some.inj hstep]
          exact ConsumerMove.take i hpc
      | accessed =>
          rw [← Option.some.inj hstep]
          exact ConsumerMove.advance i hpc
      | advanced =>
          rw [← Option.some.inj hstep]
          exact ConsumerMove.unlock i hpc
      | unlocked =>
          rw [← Option.some.inj hstep]
          exact ConsumerMove.post i hpc

end Moves

section Counting

variable {task : Task producers consumers} {s s' : State producers consumers BufferSize}

/-- A thread that moves changes the counts by its own share. -/
theorem total_setThread {n : Nat} (t : Fin n → Thread) (k : Fin n) (a : Thread) :
    total Thread.before (Function.update t k a) + (t k).before = total Thread.before t + a.before ∧
    total Thread.after (Function.update t k a) + (t k).after = total Thread.after t + a.after ∧
    total Thread.pending (Function.update t k a) + (t k).pending
      = total Thread.pending t + a.pending ∧
    total Thread.aside (Function.update t k a) + (t k).aside = total Thread.aside t + a.aside ∧
    total Thread.accesses (Function.update t k a) + (t k).accesses
      = total Thread.accesses t + a.accesses :=
  ⟨total_update _ t k a, total_update _ t k a, total_update _ t k a, total_update _ t k a,
    total_update _ t k a⟩

theorem counts_producer (h : Counts s) {p : Fin producers} (hmove : ProducerMove task s p s') :
    Counts s' := by
  rcases h with ⟨hmutex, hslots, hitems, hmade, hused⟩
  have hbound := Bool.toNat_le s.mutex
  cases hmove with
  | wait i hpc hmore hempty =>
      rcases total_setThread s.producer p ⟨.entered, i⟩ with ⟨hb, ha, hp, hs, hc⟩
      simp only [hpc, Thread.before, Thread.after, Thread.pending, Thread.aside, Thread.accesses]
        at hb ha hp hs hc
      refine ⟨?_, ?_, ?_, ?_, ?_⟩ <;> simp only [State.setProducer] <;> omega
  | lock i hpc hfree =>
      rcases total_setThread s.producer p ⟨.locked, i⟩ with ⟨hb, ha, hp, hs, hc⟩
      simp only [hpc, Thread.before, Thread.after, Thread.pending, Thread.aside, Thread.accesses]
        at hb ha hp hs hc
      rw [hfree] at hmutex
      refine ⟨?_, ?_, ?_, ?_, ?_⟩ <;>
        simp only [State.setProducer, Bool.toNat_true, Bool.toNat_false] at hmutex ⊢ <;> omega
  | store i hpc =>
      rcases total_setThread s.producer p ⟨.accessed, i⟩ with ⟨hb, ha, hp, hs, hc⟩
      simp only [hpc, Thread.before, Thread.after, Thread.pending, Thread.aside, Thread.accesses]
        at hb ha hp hs hc
      refine ⟨?_, ?_, ?_, ?_, ?_⟩ <;>
        simp only [State.setProducer, List.length_append, List.length_singleton] <;> omega
  | advance i hpc =>
      rcases total_setThread s.producer p ⟨.advanced, i⟩ with ⟨hb, ha, hp, hs, hc⟩
      simp only [hpc, Thread.before, Thread.after, Thread.pending, Thread.aside, Thread.accesses]
        at hb ha hp hs hc
      refine ⟨?_, ?_, ?_, ?_, ?_⟩ <;> simp only [State.setProducer] <;> omega
  | unlock i hpc =>
      rcases total_setThread s.producer p ⟨.unlocked, i⟩ with ⟨hb, ha, hp, hs, hc⟩
      simp only [hpc, Thread.before, Thread.after, Thread.pending, Thread.aside, Thread.accesses]
        at hb ha hp hs hc
      refine ⟨?_, ?_, ?_, ?_, ?_⟩ <;> simp only [State.setProducer, Bool.toNat_false] <;> omega
  | post i hpc =>
      rcases total_setThread s.producer p ⟨.ready, i + 1⟩ with ⟨hb, ha, hp, hs, hc⟩
      simp only [hpc, Thread.before, Thread.after, Thread.pending, Thread.aside, Thread.accesses]
        at hb ha hp hs hc
      refine ⟨?_, ?_, ?_, ?_, ?_⟩ <;> simp only [State.setProducer] <;> omega

theorem counts_consumer (h : Counts s) {c : Fin consumers} (hmove : ConsumerMove task s c s') :
    Counts s' := by
  rcases h with ⟨hmutex, hslots, hitems, hmade, hused⟩
  have hbound := Bool.toNat_le s.mutex
  cases hmove with
  | wait i hpc hmore hfull =>
      rcases total_setThread s.consumer c ⟨.entered, i⟩ with ⟨hb, ha, hp, hs, hc⟩
      simp only [hpc, Thread.before, Thread.after, Thread.pending, Thread.aside, Thread.accesses]
        at hb ha hp hs hc
      refine ⟨?_, ?_, ?_, ?_, ?_⟩ <;> simp only [State.setConsumer] <;> omega
  | lock i hpc hfree =>
      rcases total_setThread s.consumer c ⟨.locked, i⟩ with ⟨hb, ha, hp, hs, hc⟩
      simp only [hpc, Thread.before, Thread.after, Thread.pending, Thread.aside, Thread.accesses]
        at hb ha hp hs hc
      rw [hfree] at hmutex
      refine ⟨?_, ?_, ?_, ?_, ?_⟩ <;>
        simp only [State.setConsumer, Bool.toNat_true, Bool.toNat_false] at hmutex ⊢ <;> omega
  | take i hpc =>
      rcases total_setThread s.consumer c ⟨.accessed, i⟩ with ⟨hb, ha, hp, hs, hc⟩
      simp only [hpc, Thread.before, Thread.after, Thread.pending, Thread.aside, Thread.accesses]
        at hb ha hp hs hc
      refine ⟨?_, ?_, ?_, ?_, ?_⟩ <;>
        simp only [State.setConsumer, List.length_append, List.length_singleton] <;> omega
  | advance i hpc =>
      rcases total_setThread s.consumer c ⟨.advanced, i⟩ with ⟨hb, ha, hp, hs, hc⟩
      simp only [hpc, Thread.before, Thread.after, Thread.pending, Thread.aside, Thread.accesses]
        at hb ha hp hs hc
      refine ⟨?_, ?_, ?_, ?_, ?_⟩ <;> simp only [State.setConsumer] <;> omega
  | unlock i hpc =>
      rcases total_setThread s.consumer c ⟨.unlocked, i⟩ with ⟨hb, ha, hp, hs, hc⟩
      simp only [hpc, Thread.before, Thread.after, Thread.pending, Thread.aside, Thread.accesses]
        at hb ha hp hs hc
      refine ⟨?_, ?_, ?_, ?_, ?_⟩ <;> simp only [State.setConsumer, Bool.toNat_false] <;> omega
  | post i hpc =>
      rcases total_setThread s.consumer c ⟨.ready, i + 1⟩ with ⟨hb, ha, hp, hs, hc⟩
      simp only [hpc, Thread.before, Thread.after, Thread.pending, Thread.aside, Thread.accesses]
        at hb ha hp hs hc
      refine ⟨?_, ?_, ?_, ?_, ?_⟩ <;> simp only [State.setConsumer] <;> omega

theorem counts_start (hsize : 0 < BufferSize) :
    Counts (start producers consumers BufferSize hsize) := by
  have hproducers : ∀ f : Thread → Nat, f ⟨.ready, 0⟩ = 0 →
      total f (start producers consumers BufferSize hsize).producer = 0 :=
    fun f hf => total_eq_zero f fun _ => hf
  have hconsumers : ∀ f : Thread → Nat, f ⟨.ready, 0⟩ = 0 →
      total f (start producers consumers BufferSize hsize).consumer = 0 :=
    fun f hf => total_eq_zero f fun _ => hf
  refine ⟨?_, ?_, ?_, ?_, ?_⟩
  · rw [hproducers _ rfl, hproducers _ rfl, hconsumers _ rfl, hconsumers _ rfl]
    rfl
  · rw [hproducers _ rfl, hproducers _ rfl, hconsumers _ rfl, hconsumers _ rfl]
    rfl
  · rw [hproducers _ rfl, hconsumers _ rfl]
    rfl
  · exact hproducers _ rfl
  · exact hconsumers _ rfl

end Counting

section Placing

variable {task : Task producers consumers} {s s' : State producers consumers BufferSize}

/-- A table stays within its bounds if the thread that moves does. -/
theorem within_update {n : Nat} {t : Fin n → Thread} {MaxItems : Fin n → Nat}
    (h : ∀ k, (t k).within (MaxItems k)) (k : Fin n) {a : Thread} (ha : a.within (MaxItems k)) :
    ∀ j, (Function.update t k a j).within (MaxItems j) := by
  intro j
  by_cases hj : j = k
  · rw [hj, Function.update_self]
    exact ha
  · rw [Function.update_of_ne hj]
    exact h j

/-- A thread that is on its way has an item left. -/
theorem lt_of_within {t : Thread} {MaxItems i : Nat} {stage : Stage} (h : t.within MaxItems)
    (hpc : t = ⟨stage, i⟩) (hstage : stage ≠ .ready) : i < MaxItems := by
  rw [hpc] at h
  exact h.2 hstage

theorem within_producer (h : Within task s) {p : Fin producers}
    (hmove : ProducerMove task s p s') : Within task s' := by
  have hp := h.producer p
  have hset : ∀ {stage i}, i < task.MaxItems_producer p →
      ∀ j, (Function.update s.producer p ⟨stage, i⟩ j).within (task.MaxItems_producer j) :=
    fun hi => within_update h.producer p ⟨Nat.le_of_lt hi, fun _ => hi⟩
  cases hmove with
  | wait i hpc hmore hempty => exact ⟨hset hmore, h.consumer⟩
  | lock i hpc hfree => exact ⟨hset (lt_of_within hp hpc (by decide)), h.consumer⟩
  | store i hpc => exact ⟨hset (lt_of_within hp hpc (by decide)), h.consumer⟩
  | advance i hpc => exact ⟨hset (lt_of_within hp hpc (by decide)), h.consumer⟩
  | unlock i hpc => exact ⟨hset (lt_of_within hp hpc (by decide)), h.consumer⟩
  | post i hpc =>
      exact ⟨within_update h.producer p ⟨lt_of_within hp hpc (by decide), fun hne => absurd rfl hne⟩,
        h.consumer⟩

theorem within_consumer (h : Within task s) {c : Fin consumers}
    (hmove : ConsumerMove task s c s') : Within task s' := by
  have hc := h.consumer c
  have hset : ∀ {stage i}, i < task.MaxItems_consumer c →
      ∀ j, (Function.update s.consumer c ⟨stage, i⟩ j).within (task.MaxItems_consumer j) :=
    fun hi => within_update h.consumer c ⟨Nat.le_of_lt hi, fun _ => hi⟩
  cases hmove with
  | wait i hpc hmore hempty => exact ⟨h.producer, hset hmore⟩
  | lock i hpc hfree => exact ⟨h.producer, hset (lt_of_within hc hpc (by decide))⟩
  | take i hpc => exact ⟨h.producer, hset (lt_of_within hc hpc (by decide))⟩
  | advance i hpc => exact ⟨h.producer, hset (lt_of_within hc hpc (by decide))⟩
  | unlock i hpc => exact ⟨h.producer, hset (lt_of_within hc hpc (by decide))⟩
  | post i hpc =>
      exact ⟨h.producer,
        within_update h.consumer c ⟨lt_of_within hc hpc (by decide), fun hne => absurd rfl hne⟩⟩

/-- A producer before its access has the mutex, so all others have moved on, and
    it has a free slot. -/
theorem before_store (h : Counts s) {p : Fin producers} {i : Nat}
    (hpc : s.producer p = ⟨.locked, i⟩) :
    total Thread.pending s.producer = 0 ∧
      s.inserted.length < s.removed.length + BufferSize := by
  have haside := le_total Thread.aside s.producer p
  have hbefore := le_total Thread.before s.producer p
  have hbound := Bool.toNat_le s.mutex
  rw [hpc] at haside hbefore
  simp only [Thread.aside, Thread.before] at haside hbefore
  have hmutex := h.mutex
  have hslots := h.slots
  have hitems := h.items
  exact ⟨by omega, by omega⟩

/-- A consumer before its access has the mutex, and an item waits for it. -/
theorem before_take (h : Counts s) {c : Fin consumers} {i : Nat}
    (hpc : s.consumer c = ⟨.locked, i⟩) :
    total Thread.pending s.consumer = 0 ∧ s.removed.length < s.inserted.length := by
  have haside := le_total Thread.aside s.consumer c
  have hbefore := le_total Thread.before s.consumer c
  have hbound := Bool.toNat_le s.mutex
  rw [hpc] at haside hbefore
  simp only [Thread.aside, Thread.before] at haside hbefore
  have hmutex := h.mutex
  have hitems := h.items
  exact ⟨by omega, by omega⟩

/-- A thread that moves without an access and without moving on. -/
theorem pending_same {n : Nat} (t : Fin n → Thread) (k : Fin n) {a : Thread}
    (hsame : a.pending = (t k).pending) :
    total Thread.pending (Function.update t k a) = total Thread.pending t := by
  have hupdate := total_update Thread.pending t k a
  rw [hsame] at hupdate
  exact Nat.add_right_cancel hupdate

theorem placed_setProducer {hsize : 0 < BufferSize} (h : Placed hsize s) (p : Fin producers)
    {stage : Stage} {i : Nat}
    (hsame : (⟨stage, i⟩ : Thread).pending = (s.producer p).pending) :
    Placed hsize (s.setProducer p stage i) := by
  refine ⟨?_, h.out, h.logged⟩
  simp only [State.setProducer]
  rw [pending_same s.producer p hsame]
  exact h.in_

theorem placed_setConsumer {hsize : 0 < BufferSize} (h : Placed hsize s) (c : Fin consumers)
    {stage : Stage} {i : Nat}
    (hsame : (⟨stage, i⟩ : Thread).pending = (s.consumer c).pending) :
    Placed hsize (s.setConsumer c stage i) := by
  refine ⟨h.in_, ?_, h.logged⟩
  simp only [State.setConsumer]
  rw [pending_same s.consumer c hsame]
  exact h.out

theorem placed_producer {hsize : 0 < BufferSize} (hcounts : Counts s) (h : Placed hsize s)
    {p : Fin producers} (hmove : ProducerMove task s p s') : Placed hsize s' := by
  have hpending : ∀ a, total Thread.pending (Function.update s.producer p a)
      + (s.producer p).pending = total Thread.pending s.producer + a.pending :=
    fun a => total_update _ s.producer p a
  cases hmove with
  | wait i hpc hmore hempty =>
      have hplaced : Placed hsize (s.setProducer p .entered i) :=
        placed_setProducer h p (by rw [hpc]; rfl)
      exact ⟨hplaced.in_, h.out, h.logged⟩
  | lock i hpc hfree =>
      have hplaced : Placed hsize (s.setProducer p .locked i) :=
        placed_setProducer h p (by rw [hpc]; rfl)
      exact ⟨hplaced.in_, h.out, h.logged⟩
  | store i hpc =>
      rcases before_store hcounts hpc with ⟨hzero, hroom⟩
      have hone := hpending ⟨.accessed, i⟩
      rw [hpc, hzero] at hone
      have hin := h.in_
      rw [hzero, Nat.sub_zero] at hin
      refine ⟨?_, h.out, ?_⟩
      · -- The position stays, and counts one access less than there are now.
        change s.in_ = circular _ _ ((s.inserted ++ [_]).length -
          total Thread.pending (Function.update s.producer p _))
        rw [show total Thread.pending (Function.update s.producer p ⟨.accessed, i⟩) = 1 from hone,
          List.length_append, List.length_singleton, Nat.add_sub_cancel]
        exact hin
      · change Logged _ (Function.update s.buffer s.in_ _) s.removed (s.inserted ++ [_])
        rw [hin]
        -- What waits is less than a turn away.
        exact h.logged.write _ fun k hk hlt => circular_ne _ hsize k _ hlt (by omega)
  | advance i hpc =>
      have hone := hpending ⟨.advanced, i⟩
      have hle := le_total Thread.pending s.producer p
      have hafter := le_total Thread.after s.producer p
      have hbound := Bool.toNat_le s.mutex
      have hmutex := hcounts.mutex
      have hitems := hcounts.items
      rw [hpc] at hone hle hafter
      simp only [Thread.pending, Thread.after] at hone hle hafter
      refine ⟨?_, h.out, h.logged⟩
      change nextSlot s.in_ = circular _ _ (s.inserted.length -
        total Thread.pending (Function.update s.producer p _))
      rw [h.in_, nextSlot_circular]
      congr 1
      omega
  | unlock i hpc =>
      have hplaced : Placed hsize (s.setProducer p .unlocked i) :=
        placed_setProducer h p (by rw [hpc]; rfl)
      exact ⟨hplaced.in_, h.out, h.logged⟩
  | post i hpc =>
      have hplaced : Placed hsize (s.setProducer p .ready (i + 1)) :=
        placed_setProducer h p (by rw [hpc]; rfl)
      exact ⟨hplaced.in_, h.out, h.logged⟩

theorem placed_consumer {hsize : 0 < BufferSize} (hcounts : Counts s) (h : Placed hsize s)
    {c : Fin consumers} (hmove : ConsumerMove task s c s') : Placed hsize s' := by
  have hpending : ∀ a, total Thread.pending (Function.update s.consumer c a)
      + (s.consumer c).pending = total Thread.pending s.consumer + a.pending :=
    fun a => total_update _ s.consumer c a
  cases hmove with
  | wait i hpc hmore hfull =>
      have hplaced : Placed hsize (s.setConsumer c .entered i) :=
        placed_setConsumer h c (by rw [hpc]; rfl)
      exact ⟨h.in_, hplaced.out, h.logged⟩
  | lock i hpc hfree =>
      have hplaced : Placed hsize (s.setConsumer c .locked i) :=
        placed_setConsumer h c (by rw [hpc]; rfl)
      exact ⟨h.in_, hplaced.out, h.logged⟩
  | take i hpc =>
      rcases before_take hcounts hpc with ⟨hzero, hwaits⟩
      have hone := hpending ⟨.accessed, i⟩
      rw [hpc, hzero] at hone
      have hout := h.out
      rw [hzero, Nat.sub_zero] at hout
      refine ⟨h.in_, ?_, ?_⟩
      · change s.out = circular _ _ ((s.removed ++ [_]).length -
          total Thread.pending (Function.update s.consumer c _))
        rw [show total Thread.pending (Function.update s.consumer c ⟨.accessed, i⟩) = 1 from hone,
          List.length_append, List.length_singleton, Nat.add_sub_cancel]
        exact hout
      · change Logged _ s.buffer (s.removed ++ [s.buffer s.out]) s.inserted
        rw [hout]
        exact h.logged.read hwaits
  | advance i hpc =>
      have hone := hpending ⟨.advanced, i⟩
      have hle := le_total Thread.pending s.consumer c
      have hafter := le_total Thread.accesses s.consumer c
      have hbound := Bool.toNat_le s.mutex
      have hmutex := hcounts.mutex
      have hused := hcounts.used
      rw [hpc] at hone hle hafter
      simp only [Thread.pending, Thread.accesses, Thread.after] at hone hle hafter
      refine ⟨h.in_, ?_, h.logged⟩
      change nextSlot s.out = circular _ _ (s.removed.length -
        total Thread.pending (Function.update s.consumer c _))
      rw [h.out, nextSlot_circular]
      -- The access of this thread is one of those counted.
      congr 1
      omega
  | unlock i hpc =>
      have hplaced : Placed hsize (s.setConsumer c .unlocked i) :=
        placed_setConsumer h c (by rw [hpc]; rfl)
      exact ⟨h.in_, hplaced.out, h.logged⟩
  | post i hpc =>
      have hplaced : Placed hsize (s.setConsumer c .ready (i + 1)) :=
        placed_setConsumer h c (by rw [hpc]; rfl)
      exact ⟨h.in_, hplaced.out, h.logged⟩

end Placing

/-- The invariant. -/
structure Sound (task : Task producers consumers) (hsize : 0 < BufferSize)
    (s : State producers consumers BufferSize) : Prop where
  counts : Counts s
  within : Within task s
  placed : Placed hsize s

section Runs

variable {task : Task producers consumers} {hsize : 0 < BufferSize}
  {s s' : State producers consumers BufferSize}

theorem sound_start : Sound task hsize (start producers consumers BufferSize hsize) where
  counts := counts_start hsize
  within := ⟨fun _ => ⟨Nat.zero_le _, fun hne => absurd rfl hne⟩,
    fun _ => ⟨Nat.zero_le _, fun hne => absurd rfl hne⟩⟩
  placed := ⟨Fin.ext (by simp [start, circular]), Fin.ext (by simp [start, circular]), rfl⟩

theorem sound_step (h : Sound task hsize s) {e : Event producers consumers}
    (hstep : step task s e = some s') : Sound task hsize s' := by
  cases e with
  | producer p =>
      have hmove := producer_moves hstep
      exact ⟨counts_producer h.counts hmove, within_producer h.within hmove,
        placed_producer h.counts h.placed hmove⟩
  | consumer c =>
      have hmove := consumer_moves hstep
      exact ⟨counts_consumer h.counts hmove, within_consumer h.within hmove,
        placed_consumer h.counts h.placed hmove⟩

theorem sound_reachable
    (hreach : Reachable (step task) (start producers consumers BufferSize hsize) s) :
    Sound task hsize s :=
  hreach.invariant sound_start fun _ _ _ h _ hstep => sound_step h hstep

/-- A producer that cannot move is at the head of its loop, with nothing to do
    or no free slot, or waits for the mutex. -/
theorem producer_stuck {p : Fin producers} (h : producer task s p = none) :
    ((s.producer p).stage = .ready ∧
      (0 < s.empty → task.MaxItems_producer p ≤ (s.producer p).i)) ∨
    (s.producer p).stage = .entered ∧ s.mutex = true := by
  unfold producer at h
  cases hstage : (s.producer p).stage <;> simp only [hstage] at h <;> simp at h
  · exact Or.inl ⟨rfl, fun hempty => by
      by_contra hlt
      have hzero := h (by omega)
      omega⟩
  · exact Or.inr ⟨rfl, h⟩

theorem consumer_stuck {c : Fin consumers} (h : consumer task s c = none) :
    ((s.consumer c).stage = .ready ∧
      (0 < s.full → task.MaxItems_consumer c ≤ (s.consumer c).i)) ∨
    (s.consumer c).stage = .entered ∧ s.mutex = true := by
  unfold consumer at h
  cases hstage : (s.consumer c).stage <;> simp only [hstage] at h <;> simp at h
  · exact Or.inl ⟨rfl, fun hfull => by
      by_contra hlt
      have hzero := h (by omega)
      omega⟩
  · exact Or.inr ⟨rfl, h⟩

/-- If nobody can move, everybody stands at the head of its loop: no thread that
    could give the mutex back is there. -/
theorem all_ready (h : Counts s) (hstuck : ∀ e, step task s e = none) :
    (∀ p, (s.producer p).stage = .ready) ∧ ∀ c, (s.consumer c).stage = .ready := by
  have hproducer := fun p => producer_stuck (hstuck (.producer p))
  have hconsumer := fun c => consumer_stuck (hstuck (.consumer c))
  -- Whoever has the mutex can go on, so nobody has it.
  have hfree : s.mutex = false := by
    have hp : total Thread.pending s.producer = 0 ∧ total Thread.aside s.producer = 0 := by
      refine ⟨total_eq_zero _ fun p => ?_, total_eq_zero _ fun p => ?_⟩ <;>
        rcases hproducer p with ⟨hstage, _⟩ | ⟨hstage, _⟩ <;>
        simp only [Thread.pending, Thread.aside, hstage]
    have hc : total Thread.pending s.consumer = 0 ∧ total Thread.aside s.consumer = 0 := by
      refine ⟨total_eq_zero _ fun c => ?_, total_eq_zero _ fun c => ?_⟩ <;>
        rcases hconsumer c with ⟨hstage, _⟩ | ⟨hstage, _⟩ <;>
        simp only [Thread.pending, Thread.aside, hstage]
    have hmutex := h.mutex
    rw [hp.1, hp.2, hc.1, hc.2] at hmutex
    exact Bool.toNat_eq_zero.mp hmutex.symm
  constructor
  · intro p
    rcases hproducer p with ⟨hstage, _⟩ | ⟨_, hmutex⟩
    · exact hstage
    · exact absurd (hfree.symm.trans hmutex) Bool.false_ne_true
  · intro c
    rcases hconsumer c with ⟨hstage, _⟩ | ⟨_, hmutex⟩
    · exact hstage
    · exact absurd (hfree.symm.trans hmutex) Bool.false_ne_true

theorem total_ready {n : Nat} {t : Fin n → Thread} (h : ∀ k, (t k).stage = .ready) :
    total Thread.before t = 0 ∧ total Thread.after t = 0 ∧
      total Thread.accesses t = ∑ k, (t k).i := by
  refine ⟨total_eq_zero _ fun k => ?_, total_eq_zero _ fun k => ?_,
    Finset.sum_congr rfl fun k _ => ?_⟩
  · simp only [Thread.before, h k]
  · simp only [Thread.after, h k]
  · simp only [Thread.accesses, Thread.after, h k, Nat.add_zero]

/-- If nobody can move, and the producers have as many items as the consumers,
    everybody has finished. -/
theorem all_finished (h : Sound task hsize s)
    (heven : ∑ p, task.MaxItems_producer p = ∑ c, task.MaxItems_consumer c)
    (hstuck : ∀ e, step task s e = none) :
    (∀ p, (s.producer p).finished (task.MaxItems_producer p)) ∧
      ∀ c, (s.consumer c).finished (task.MaxItems_consumer c) := by
  rcases all_ready h.counts hstuck with ⟨hpready, hcready⟩
  rcases total_ready hpready with ⟨hpbefore, hpafter, hpsum⟩
  rcases total_ready hcready with ⟨hcbefore, hcafter, hcsum⟩
  have hslots := h.counts.slots
  have hitems := h.counts.items
  have hmade := h.counts.made
  have hused := h.counts.used
  have hple : ∑ p, (s.producer p).i ≤ ∑ p, task.MaxItems_producer p :=
    Finset.sum_le_sum fun p _ => (h.within.producer p).1
  have hproducer : 0 < s.empty → ∀ p, task.MaxItems_producer p ≤ (s.producer p).i := by
    intro hempty p
    rcases producer_stuck (hstuck (.producer p)) with ⟨_, hdone⟩ | ⟨hstage, _⟩
    · exact hdone hempty
    · exact absurd (hstage.symm.trans (hpready p)) (by decide)
  have hconsumer : 0 < s.full → ∀ c, task.MaxItems_consumer c ≤ (s.consumer c).i := by
    intro hfull c
    rcases consumer_stuck (hstuck (.consumer c)) with ⟨_, hdone⟩ | ⟨hstage, _⟩
    · exact hdone hfull
    · exact absurd (hstage.symm.trans (hcready c)) (by decide)
  by_cases hfull : 0 < s.full
  · -- The consumers have taken all there is to be made, so nothing can wait.
    have hcle : ∑ c, task.MaxItems_consumer c ≤ ∑ c, (s.consumer c).i :=
      Finset.sum_le_sum fun c _ => hconsumer hfull c
    omega
  · -- Nothing waits, so all slots are free and the producers have finished.
    have hpdone := hproducer (by omega)
    have hpge : ∑ p, task.MaxItems_producer p ≤ ∑ p, (s.producer p).i :=
      Finset.sum_le_sum fun p _ => hpdone p
    have hcsame : ∑ c, (s.consumer c).i = ∑ c, task.MaxItems_consumer c := by omega
    have hceq := (Finset.sum_eq_sum_iff_of_le fun c _ => (h.within.consumer c).1).mp hcsame
    exact ⟨fun p => ⟨hpready p, hpdone p⟩,
      fun c => ⟨hcready c, Nat.le_of_eq (hceq c (Finset.mem_univ c)).symm⟩⟩

end Runs

/-- For any number of threads, any numbers of items and any size of the buffer,
    in every state reached by any interleaving: what has been taken is, in
    order, the beginning of what has been stored; what has been stored and not
    taken still stands in its slot, which is none a producer is about to store
    into; and if the producers have as many items as the consumers and some
    thread has not finished, some thread can go on. -/
theorem buffer_fifo (producers consumers BufferSize : Nat) (hsize : 0 < BufferSize)
    (task : Task producers consumers) (s : State producers consumers BufferSize)
    (hreach : Reachable (step task) (start producers consumers BufferSize hsize) s) :
    s.removed <+: s.inserted ∧
    (∀ k, s.removed.length ≤ k → k < s.inserted.length →
      s.inserted[k]? = some (s.buffer (circular BufferSize hsize k)) ∧
        ∀ p i, s.producer p = ⟨.locked, i⟩ → circular BufferSize hsize k ≠ s.in_) ∧
    (∑ p, task.MaxItems_producer p = ∑ c, task.MaxItems_consumer c →
      (∃ p, ¬ (s.producer p).finished (task.MaxItems_producer p)) ∨
        (∃ c, ¬ (s.consumer c).finished (task.MaxItems_consumer c)) →
      ∃ e s', step task s e = some s') := by
  have h := sound_reachable hreach
  have hlogged := h.placed.logged
  refine ⟨⟨_, hlogged⟩, ?_, ?_⟩
  · intro k hle hlt
    refine ⟨hlogged.getElem? hle hlt, fun p i hpc => ?_⟩
    rcases before_store h.counts hpc with ⟨hzero, hroom⟩
    rw [h.placed.in_, hzero, Nat.sub_zero]
    exact circular_ne _ hsize k _ hlt (by omega)
  · intro heven hopen
    by_contra hnone
    have hstuck : ∀ e, step task s e = none := by
      intro e
      cases hstep : step task s e with
      | none => rfl
      | some s' => exact absurd ⟨e, s', hstep⟩ hnone
    rcases all_finished h heven hstuck with ⟨hproducers, hconsumers⟩
    rcases hopen with ⟨p, hp⟩ | ⟨c, hc⟩
    · exact hp (hproducers p)
    · exact hc (hconsumers c)

/-- Two producers with one item each, for one consumer. -/
def oneEach : Task 2 1 where
  id p := p + 1
  MaxItems_producer _ := 1
  MaxItems_consumer _ := 2

/-- Both store their items before either posts, and the consumer takes one. -/
def storedBeforePosts (p q : Fin producers) (c : Fin consumers) : List (Event producers consumers) :=
  List.replicate 5 (.producer p) ++ List.replicate 6 (.producer q) ++ List.replicate 3 (.consumer c)

theorem buffer_fifo_run :
    ∃ s, run (step oneEach) (start 2 1 3 (by decide)) (storedBeforePosts 1 0 0) = some s ∧
      s.inserted = [20, 10] ∧ s.removed = [20] ∧ s.removed <+: s.inserted := by
  have hend : (run (step oneEach) (start 2 1 3 (by decide)) (storedBeforePosts 1 0 0)).map
      (fun s => (s.inserted, s.removed)) = some ([20, 10], [20]) := by decide +kernel
  rcases Option.map_eq_some_iff.mp hend with ⟨s, hrun, hpair⟩
  rcases Prod.mk.inj hpair with ⟨hinserted, hremoved⟩
  exact ⟨s, hrun, hinserted, hremoved,
    (buffer_fifo 2 1 3 (by decide) oneEach s (reachable_of_run hrun)).1⟩

end Buffer

end Kolos

end OsLabs
