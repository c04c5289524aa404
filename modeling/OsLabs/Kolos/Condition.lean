import OsLabs.Core.Ring
import OsLabs.Core.Run

/-!
# A Ring Buffer with Condition Variables

`kolos/test_2/g_02/task_2` as a transition system: a producer puts the numbers
from 1 to `N` into a ring of `BUF_SIZE` slots and a consumer takes them out, for
any `N` and any size in place of 20 and 3. One mutex protects the ring and its
three indices; the producer waits on `c_prod` while the ring is full, the
consumer on `c_cons` while it is empty, and each broadcasts to the other after
it has changed `num`.

A step is one statement of a thread. `pthread_cond_wait` is two: the call gives
the mutex back and sleeps, in one step with the test before it, and the return
takes the mutex again, once the thread has been woken. A sleeping thread is
woken by a broadcast, or for no reason, which is an event of its own. `exit`
ends the process, so no step comes after it.

The last three components of the state are history: the values stored, those
taken out of the ring, and those printed by the consumer.

A thread sleeps only while what it waits for is not there, or while the other
thread has just provided it and is about to broadcast. So not both can sleep.

## Main definitions

* `Producer`, `Consumer`: Where a thread stands.
* `State`, `Event`, `step`, `start`: The transition system.
* `ProducerMove`, `ConsumerMove`: What a step of a thread does.
* `Counts`, `Placed`: The invariant.
* `rank`: What is left to do.

## Theorems

* `producer_moves`, `consumer_moves`: Every step of a thread is such a move.
* `sound_step`: A step keeps the invariant.
* `rank_step`: A step makes the rest smaller, unless it wakes a thread for no
  reason.
* `stuck_consumed`: If nobody can go on, everything has been consumed.
* `ring_sound`: Order, bounds and progress.
* `ring_sound_run`: Three values in a ring of two slots.
-/

namespace OsLabs

namespace Kolos

namespace Condition

/-- Where the producer stands. -/
inductive Producer
  /-- At the head of the loop. -/
  | ready
  /-- The test for overflow is next. -/
  | locked
  /-- The test of `while` is next. -/
  | testing
  | waiting
  /-- Woken; the mutex is to be taken again. -/
  | woken
  | storing
  | advancing
  | counting
  | broadcasting
  | unlocking
  deriving DecidableEq

/-- Where the consumer stands, with the value it has taken. -/
inductive Consumer
  | ready
  | locked
  | testing
  | waiting
  | woken
  | taking
  | advancing (value : Int)
  | counting (value : Int)
  | broadcasting (value : Int)
  | unlocking (value : Int)
  /-- The value is printed next. -/
  | printing (value : Int)
  /-- The loop is left. -/
  | quit
  deriving DecidableEq

structure State (BUF_SIZE : Nat) where
  buffer : Fin BUF_SIZE → Int
  add : Fin BUF_SIZE
  rem : Fin BUF_SIZE
  num : Int
  mutex : Bool
  /-- `exit(1)` has been called. -/
  exited : Bool
  producer : Producer
  i : Nat
  consumer : Consumer
  kk : Nat
  /-- The values stored, in order. -/
  inserted : List Int
  /-- The values taken out, in order. -/
  taken : List Int
  /-- The values printed by the consumer, in order. -/
  consumed : List Int

inductive Event
  | producer
  | consumer
  /-- The producer is woken for no reason. -/
  | wake_producer
  | wake_consumer

/-- The event wakes a thread for no reason. -/
def Event.spurious : Event → Bool
  | .wake_producer => true
  | .wake_consumer => true
  | _ => false

variable {BUF_SIZE : Nat}

/-- The producer after a broadcast to `c_prod`. -/
def Producer.wake : Producer → Producer
  | .waiting => .woken
  | pc => pc

/-- The consumer after a broadcast to `c_cons`. -/
def Consumer.wake : Consumer → Consumer
  | .waiting => .woken
  | pc => pc

/-- The next step of the producer. -/
def producer (N : Nat) (s : State BUF_SIZE) : Option (State BUF_SIZE) :=
  match s.producer with
  | .ready =>
    if s.i ≤ N ∧ s.mutex = false then some { s with producer := .locked, mutex := true } else none
  | .locked =>
    if s.num > BUF_SIZE then some { s with exited := true } else some { s with producer := .testing }
  | .testing =>
    -- `pthread_cond_wait` gives the mutex back as it begins to sleep.
    if s.num = BUF_SIZE then some { s with producer := .waiting, mutex := false }
    else some { s with producer := .storing }
  | .waiting => none
  | .woken => if s.mutex then none else some { s with producer := .testing, mutex := true }
  | .storing => some
      { s with
        producer := .advancing
        buffer := Function.update s.buffer s.add s.i
        inserted := s.inserted ++ [(s.i : Int)] }
  | .advancing => some { s with producer := .counting, add := nextSlot s.add }
  | .counting => some { s with producer := .broadcasting, num := s.num + 1 }
  | .broadcasting => some { s with producer := .unlocking, consumer := s.consumer.wake }
  | .unlocking => some { s with producer := .ready, i := s.i + 1, mutex := false }

/-- The next step of the consumer. -/
def consumer (N : Nat) (s : State BUF_SIZE) : Option (State BUF_SIZE) :=
  match s.consumer with
  | .ready =>
    if s.mutex then none else some { s with consumer := .locked, kk := s.kk + 1, mutex := true }
  | .locked =>
    if s.num < 0 then some { s with exited := true } else some { s with consumer := .testing }
  | .testing =>
    if s.num = 0 then some { s with consumer := .waiting, mutex := false }
    else some { s with consumer := .taking }
  | .waiting => none
  | .woken => if s.mutex then none else some { s with consumer := .testing, mutex := true }
  | .taking => some
      { s with
        consumer := .advancing (s.buffer s.rem)
        taken := s.taken ++ [s.buffer s.rem] }
  | .advancing value => some { s with consumer := .counting value, rem := nextSlot s.rem }
  | .counting value => some { s with consumer := .broadcasting value, num := s.num - 1 }
  | .broadcasting value => some
      { s with consumer := .unlocking value, producer := s.producer.wake }
  | .unlocking value => some { s with consumer := .printing value, mutex := false }
  -- The value is printed without the mutex.
  | .printing value => some
      { s with
        consumer := if s.kk ≥ N then .quit else .ready
        consumed := s.consumed ++ [value] }
  | .quit => none

def step (N : Nat) (s : State BUF_SIZE) : Event → Option (State BUF_SIZE)
  | .producer => if s.exited then none else producer N s
  | .consumer => if s.exited then none else consumer N s
  | .wake_producer =>
    if s.exited = false ∧ s.producer = .waiting then some { s with producer := .woken } else none
  | .wake_consumer =>
    if s.exited = false ∧ s.consumer = .waiting then some { s with consumer := .woken } else none

/-- The state in which `main` creates the threads. -/
def start (BUF_SIZE : Nat) (hsize : 0 < BUF_SIZE) : State BUF_SIZE where
  buffer _ := 0
  add := ⟨0, hsize⟩
  rem := ⟨0, hsize⟩
  num := 0
  mutex := false
  exited := false
  producer := .ready
  i := 1
  consumer := .ready
  kk := 0
  inserted := []
  taken := []
  consumed := []

/-- The first `n` values. -/
def values (n : Nat) : List Int := (List.range n).map fun k : Nat => (k : Int) + 1

/-- What a place of the producer counts for, zero or one each. -/
structure ProducerLoad where
  /-- It has the mutex. -/
  holds : Nat
  /-- It is in the body of its loop. -/
  busy : Nat
  /-- It has stored the value of this round. -/
  stored : Nat
  /-- It has seen that there is room, and not counted its value yet. -/
  entering : Nat
  /-- It has stored a value that `num` does not count yet. -/
  uncounted : Nat
  /-- It has stored a value and not moved `add` on. -/
  pending : Nat
  /-- It has counted its value and not broadcast yet. -/
  owes : Nat
  asleep : Nat

def Producer.load : Producer → ProducerLoad
  | .ready => ⟨0, 0, 0, 0, 0, 0, 0, 0⟩
  | .locked => ⟨1, 1, 0, 0, 0, 0, 0, 0⟩
  | .testing => ⟨1, 1, 0, 0, 0, 0, 0, 0⟩
  | .waiting => ⟨0, 1, 0, 0, 0, 0, 0, 1⟩
  | .woken => ⟨0, 1, 0, 0, 0, 0, 0, 0⟩
  | .storing => ⟨1, 1, 0, 1, 0, 0, 0, 0⟩
  | .advancing => ⟨1, 1, 1, 1, 1, 1, 0, 0⟩
  | .counting => ⟨1, 1, 1, 1, 1, 0, 0, 0⟩
  | .broadcasting => ⟨1, 1, 1, 0, 0, 0, 1, 0⟩
  | .unlocking => ⟨1, 1, 1, 0, 0, 0, 0, 0⟩

/-- What a place of the consumer counts for. -/
structure ConsumerLoad where
  /-- It has the mutex. -/
  holds : Nat
  /-- It has not begun its next round. -/
  idle : Nat
  /-- It has begun a round and not taken a value in it. -/
  without : Nat
  /-- It has seen that there is a value, and not counted it off yet. -/
  entering : Nat
  /-- It has taken a value that `num` still counts. -/
  uncounted : Nat
  /-- It has taken a value and not moved `rem` on. -/
  pending : Nat
  /-- It has counted its value off and not broadcast yet. -/
  owes : Nat
  asleep : Nat
  /-- It has left its loop. -/
  left : Nat

def Consumer.load : Consumer → ConsumerLoad
  | .ready => ⟨0, 1, 0, 0, 0, 0, 0, 0, 0⟩
  | .locked => ⟨1, 0, 1, 0, 0, 0, 0, 0, 0⟩
  | .testing => ⟨1, 0, 1, 0, 0, 0, 0, 0, 0⟩
  | .waiting => ⟨0, 0, 1, 0, 0, 0, 0, 1, 0⟩
  | .woken => ⟨0, 0, 1, 0, 0, 0, 0, 0, 0⟩
  | .taking => ⟨1, 0, 1, 1, 0, 0, 0, 0, 0⟩
  | .advancing _ => ⟨1, 0, 0, 1, 1, 1, 0, 0, 0⟩
  | .counting _ => ⟨1, 0, 0, 1, 1, 0, 0, 0, 0⟩
  | .broadcasting _ => ⟨1, 0, 0, 0, 0, 0, 1, 0, 0⟩
  | .unlocking _ => ⟨1, 0, 0, 0, 0, 0, 0, 0, 0⟩
  | .printing _ => ⟨0, 0, 0, 0, 0, 0, 0, 0, 0⟩
  | .quit => ⟨0, 0, 0, 0, 0, 0, 0, 0, 1⟩

/-- The value taken and not printed yet. -/
def Consumer.hand : Consumer → List Int
  | .advancing value => [value]
  | .counting value => [value]
  | .broadcasting value => [value]
  | .unlocking value => [value]
  | .printing value => [value]
  | _ => []

/-- How the mutex, the indices and the histories count. -/
structure Counts (N : Nat) (s : State BUF_SIZE) : Prop where
  running : s.exited = false
  mutex : s.producer.load.holds + s.consumer.load.holds = s.mutex.toNat
  num : s.num + s.producer.load.uncounted + s.taken.length
    = s.inserted.length + s.consumer.load.uncounted
  made : s.inserted.length + 1 = s.i + s.producer.load.stored
  used : s.taken.length + s.consumer.load.without = s.kk
  room : s.num + s.producer.load.entering ≤ BUF_SIZE
  avail : s.consumer.load.entering ≤ s.num
  within : s.i + s.producer.load.busy ≤ N + 1
  rounds : s.kk + s.consumer.load.idle ≤ N + 1
  left : s.consumer.load.left = 1 → N ≤ s.kk
  full : s.producer.load.asleep = 1 → (BUF_SIZE : Int) ≤ s.num + s.consumer.load.owes
  empty : s.consumer.load.asleep = 1 → s.num ≤ s.producer.load.owes

/-- A step of the producer. -/
inductive ProducerMove (N : Nat) (s : State BUF_SIZE) : State BUF_SIZE → Prop
  | lock (hpc : s.producer = .ready) (hmore : s.i ≤ N) (hfree : s.mutex = false) :
      ProducerMove N s { s with producer := .locked, mutex := true }
  | overflow (hpc : s.producer = .locked) (hnum : s.num > BUF_SIZE) :
      ProducerMove N s { s with exited := true }
  | check (hpc : s.producer = .locked) : ProducerMove N s { s with producer := .testing }
  | wait (hpc : s.producer = .testing) (hfull : s.num = BUF_SIZE) :
      ProducerMove N s { s with producer := .waiting, mutex := false }
  | pass (hpc : s.producer = .testing) (hroom : s.num ≠ BUF_SIZE) :
      ProducerMove N s { s with producer := .storing }
  | relock (hpc : s.producer = .woken) (hfree : s.mutex = false) :
      ProducerMove N s { s with producer := .testing, mutex := true }
  | store (hpc : s.producer = .storing) :
      ProducerMove N s { s with
        producer := .advancing
        buffer := Function.update s.buffer s.add s.i
        inserted := s.inserted ++ [(s.i : Int)] }
  | advance (hpc : s.producer = .advancing) :
      ProducerMove N s { s with producer := .counting, add := nextSlot s.add }
  | count (hpc : s.producer = .counting) :
      ProducerMove N s { s with producer := .broadcasting, num := s.num + 1 }
  | broadcast (hpc : s.producer = .broadcasting) :
      ProducerMove N s { s with producer := .unlocking, consumer := s.consumer.wake }
  | unlock (hpc : s.producer = .unlocking) :
      ProducerMove N s { s with producer := .ready, i := s.i + 1, mutex := false }

/-- A step of the consumer. -/
inductive ConsumerMove (N : Nat) (s : State BUF_SIZE) : State BUF_SIZE → Prop
  | lock (hpc : s.consumer = .ready) (hfree : s.mutex = false) :
      ConsumerMove N s { s with consumer := .locked, kk := s.kk + 1, mutex := true }
  | underflow (hpc : s.consumer = .locked) (hnum : s.num < 0) :
      ConsumerMove N s { s with exited := true }
  | check (hpc : s.consumer = .locked) : ConsumerMove N s { s with consumer := .testing }
  | wait (hpc : s.consumer = .testing) (hempty : s.num = 0) :
      ConsumerMove N s { s with consumer := .waiting, mutex := false }
  | pass (hpc : s.consumer = .testing) (hnum : s.num ≠ 0) :
      ConsumerMove N s { s with consumer := .taking }
  | relock (hpc : s.consumer = .woken) (hfree : s.mutex = false) :
      ConsumerMove N s { s with consumer := .testing, mutex := true }
  | take (hpc : s.consumer = .taking) :
      ConsumerMove N s { s with
        consumer := .advancing (s.buffer s.rem)
        taken := s.taken ++ [s.buffer s.rem] }
  | advance (value : Int) (hpc : s.consumer = .advancing value) :
      ConsumerMove N s { s with consumer := .counting value, rem := nextSlot s.rem }
  | count (value : Int) (hpc : s.consumer = .counting value) :
      ConsumerMove N s { s with consumer := .broadcasting value, num := s.num - 1 }
  | broadcast (value : Int) (hpc : s.consumer = .broadcasting value) :
      ConsumerMove N s { s with consumer := .unlocking value, producer := s.producer.wake }
  | unlock (value : Int) (hpc : s.consumer = .unlocking value) :
      ConsumerMove N s { s with consumer := .printing value, mutex := false }
  | print (value : Int) (hpc : s.consumer = .printing value) (hmore : s.kk < N) :
      ConsumerMove N s { s with consumer := .ready, consumed := s.consumed ++ [value] }
  | leave (value : Int) (hpc : s.consumer = .printing value) (hlast : N ≤ s.kk) :
      ConsumerMove N s { s with consumer := .quit, consumed := s.consumed ++ [value] }

section Moves

variable {N : Nat} {s s' : State BUF_SIZE}

theorem producer_moves (hstep : producer N s = some s') : ProducerMove N s s' := by
  unfold producer at hstep
  cases hpc : s.producer <;> simp only [hpc] at hstep
  case ready =>
    split_ifs at hstep with h
    exact Option.some.inj hstep ▸ ProducerMove.lock hpc h.1 h.2
  case locked =>
    split_ifs at hstep with h
    · have hmove : ProducerMove N s { s with exited := true } := ProducerMove.overflow hpc h
      rw [hpc] at hmove
      exact Option.some.inj hstep ▸ hmove
    · exact Option.some.inj hstep ▸ ProducerMove.check hpc
  case testing =>
    split_ifs at hstep with h
    · exact Option.some.inj hstep ▸ ProducerMove.wait hpc h
    · exact Option.some.inj hstep ▸ ProducerMove.pass hpc h
  case waiting => cases hstep
  case woken =>
    split_ifs at hstep with h
    exact Option.some.inj hstep ▸ ProducerMove.relock hpc (Bool.eq_false_iff.mpr h)
  case storing => exact Option.some.inj hstep ▸ ProducerMove.store hpc
  case advancing => exact Option.some.inj hstep ▸ ProducerMove.advance hpc
  case counting => exact Option.some.inj hstep ▸ ProducerMove.count hpc
  case broadcasting => exact Option.some.inj hstep ▸ ProducerMove.broadcast hpc
  case unlocking => exact Option.some.inj hstep ▸ ProducerMove.unlock hpc

theorem consumer_moves (hstep : consumer N s = some s') : ConsumerMove N s s' := by
  unfold consumer at hstep
  cases hpc : s.consumer <;> simp only [hpc] at hstep
  case ready =>
    split_ifs at hstep with h
    exact Option.some.inj hstep ▸ ConsumerMove.lock hpc (Bool.eq_false_iff.mpr h)
  case locked =>
    split_ifs at hstep with h
    · have hmove : ConsumerMove N s { s with exited := true } := ConsumerMove.underflow hpc h
      rw [hpc] at hmove
      exact Option.some.inj hstep ▸ hmove
    · exact Option.some.inj hstep ▸ ConsumerMove.check hpc
  case testing =>
    split_ifs at hstep with h
    · exact Option.some.inj hstep ▸ ConsumerMove.wait hpc h
    · exact Option.some.inj hstep ▸ ConsumerMove.pass hpc h
  case waiting => cases hstep
  case woken =>
    split_ifs at hstep with h
    exact Option.some.inj hstep ▸ ConsumerMove.relock hpc (Bool.eq_false_iff.mpr h)
  case taking => exact Option.some.inj hstep ▸ ConsumerMove.take hpc
  case advancing value => exact Option.some.inj hstep ▸ ConsumerMove.advance value hpc
  case counting value => exact Option.some.inj hstep ▸ ConsumerMove.count value hpc
  case broadcasting value => exact Option.some.inj hstep ▸ ConsumerMove.broadcast value hpc
  case unlocking value => exact Option.some.inj hstep ▸ ConsumerMove.unlock value hpc
  case printing value =>
    by_cases h : s.kk ≥ N
    · rw [if_pos h] at hstep
      exact Option.some.inj hstep ▸ ConsumerMove.leave value hpc h
    · rw [if_neg h] at hstep
      exact Option.some.inj hstep ▸ ConsumerMove.print value hpc (Nat.lt_of_not_le h)
  case quit => cases hstep

end Moves

section Counting

variable {N : Nat} {s s' : State BUF_SIZE}

/-- A broadcast changes nothing but that the other thread does not sleep. -/
theorem load_wake_producer (pc : Producer) : pc.wake.load = { pc.load with asleep := 0 } := by
  cases pc <;> rfl

theorem load_wake_consumer (pc : Consumer) : pc.wake.load = { pc.load with asleep := 0 } := by
  cases pc <;> rfl

theorem counts_producer (h : Counts N s) (hmove : ProducerMove N s s') : Counts N s' := by
  rcases h with
    ⟨hrun, hmutex, hnum, hmade, hused, hroom, havail, hwithin, hrounds, hleft, hfull, hempty⟩
  have hbound := Bool.toNat_le s.mutex
  cases hmove with
  | lock hpc hmore hfree =>
      simp only [hpc, Producer.load] at hmutex hnum hmade hroom hwithin hempty
      rw [hfree] at hmutex
      refine ⟨hrun, ?_, ?_, ?_, hused, ?_, havail, ?_, hrounds, hleft, ?_, ?_⟩ <;>
        simp only [Producer.load, Bool.toNat_true, Bool.toNat_false] at hmutex ⊢ <;> omega
  | overflow hpc hover =>
      -- The test fails: `num` is no more than the size.
      simp only [hpc, Producer.load] at hroom
      omega
  | check hpc =>
      simp only [hpc, Producer.load] at hmutex hnum hmade hroom hwithin hempty
      refine ⟨hrun, hmutex, hnum, hmade, hused, hroom, havail, hwithin, hrounds, hleft, ?_,
        hempty⟩
      simp only [Producer.load]
      omega
  | wait hpc heq =>
      simp only [hpc, Producer.load] at hmutex hnum hmade hroom hwithin hempty
      refine ⟨hrun, ?_, hnum, hmade, hused, hroom, havail, hwithin, hrounds, hleft, ?_, hempty⟩ <;>
        simp only [Producer.load, Bool.toNat_false] <;> omega
  | pass hpc hne =>
      simp only [hpc, Producer.load] at hmutex hnum hmade hroom hwithin hempty
      refine ⟨hrun, hmutex, hnum, hmade, hused, ?_, havail, hwithin, hrounds, hleft, ?_, hempty⟩ <;>
        simp only [Producer.load] <;> omega
  | relock hpc hfree =>
      simp only [hpc, Producer.load] at hmutex hnum hmade hroom hwithin hempty
      rw [hfree] at hmutex
      refine ⟨hrun, ?_, hnum, hmade, hused, hroom, havail, hwithin, hrounds, hleft, ?_, hempty⟩ <;>
        simp only [Producer.load, Bool.toNat_true, Bool.toNat_false] at hmutex ⊢ <;> omega
  | store hpc =>
      simp only [hpc, Producer.load] at hmutex hnum hmade hroom hwithin hempty
      refine ⟨hrun, hmutex, ?_, ?_, hused, hroom, havail, hwithin, hrounds, hleft, ?_, hempty⟩ <;>
        simp only [Producer.load, List.length_append, List.length_singleton] <;> omega
  | advance hpc =>
      simp only [hpc, Producer.load] at hmutex hnum hmade hroom hwithin hempty
      refine ⟨hrun, hmutex, hnum, hmade, hused, hroom, havail, hwithin, hrounds, hleft, ?_,
        hempty⟩
      simp only [Producer.load]
      omega
  | count hpc =>
      simp only [hpc, Producer.load] at hmutex hnum hmade hroom hwithin hempty
      refine ⟨hrun, hmutex, ?_, hmade, hused, ?_, ?_, hwithin, hrounds, hleft, ?_, ?_⟩ <;>
        simp only [Producer.load] <;> omega
  | broadcast hpc =>
      simp only [hpc, Producer.load] at hmutex hnum hmade hroom hwithin hempty
      refine ⟨hrun, ?_, ?_, ?_, ?_, ?_, ?_, ?_, ?_, ?_, ?_, ?_⟩ <;>
        simp only [Producer.load, load_wake_consumer] <;> omega
  | unlock hpc =>
      simp only [hpc, Producer.load] at hmutex hnum hmade hroom hwithin hempty
      refine ⟨hrun, ?_, ?_, ?_, hused, ?_, havail, ?_, hrounds, hleft, ?_, hempty⟩ <;>
        simp only [Producer.load, Bool.toNat_false] <;> omega

theorem counts_consumer (h : Counts N s) (hmove : ConsumerMove N s s') : Counts N s' := by
  rcases h with
    ⟨hrun, hmutex, hnum, hmade, hused, hroom, havail, hwithin, hrounds, hleft, hfull, hempty⟩
  have hbound := Bool.toNat_le s.mutex
  cases hmove with
  | lock hpc hfree =>
      simp only [hpc, Consumer.load] at hmutex hnum hused havail hrounds hfull
      rw [hfree] at hmutex
      refine ⟨hrun, ?_, hnum, hmade, ?_, hroom, havail, hwithin, ?_, ?_, hfull, ?_⟩ <;>
        simp only [Consumer.load, Bool.toNat_true, Bool.toNat_false] at hmutex ⊢ <;> omega
  | underflow hpc hunder =>
      -- The test fails: `num` is not negative.
      simp only [hpc, Consumer.load] at havail
      omega
  | check hpc =>
      simp only [hpc, Consumer.load] at hmutex hnum hused havail hrounds hfull
      refine ⟨hrun, hmutex, hnum, hmade, hused, hroom, havail, hwithin, hrounds, ?_, hfull, ?_⟩ <;>
        simp only [Consumer.load] <;> omega
  | wait hpc heq =>
      simp only [hpc, Consumer.load] at hmutex hnum hused havail hrounds hfull
      refine ⟨hrun, ?_, hnum, hmade, hused, hroom, havail, hwithin, hrounds, ?_, hfull, ?_⟩ <;>
        simp only [Consumer.load, Bool.toNat_false] <;> omega
  | pass hpc hne =>
      simp only [hpc, Consumer.load] at hmutex hnum hused havail hrounds hfull
      refine ⟨hrun, hmutex, hnum, hmade, hused, hroom, ?_, hwithin, hrounds, ?_, hfull, ?_⟩ <;>
        simp only [Consumer.load] <;> omega
  | relock hpc hfree =>
      simp only [hpc, Consumer.load] at hmutex hnum hused havail hrounds hfull
      rw [hfree] at hmutex
      refine ⟨hrun, ?_, hnum, hmade, hused, hroom, havail, hwithin, hrounds, ?_, hfull, ?_⟩ <;>
        simp only [Consumer.load, Bool.toNat_true, Bool.toNat_false] at hmutex ⊢ <;> omega
  | take hpc =>
      simp only [hpc, Consumer.load] at hmutex hnum hused havail hrounds hfull
      refine ⟨hrun, hmutex, ?_, hmade, ?_, hroom, havail, hwithin, hrounds, ?_, hfull, ?_⟩ <;>
        simp only [Consumer.load, List.length_append, List.length_singleton] <;> omega
  | advance value hpc =>
      simp only [hpc, Consumer.load] at hmutex hnum hused havail hrounds hfull
      refine ⟨hrun, hmutex, hnum, hmade, hused, hroom, havail, hwithin, hrounds, ?_, hfull, ?_⟩ <;>
        simp only [Consumer.load] <;> omega
  | count value hpc =>
      simp only [hpc, Consumer.load] at hmutex hnum hused havail hrounds hfull
      refine ⟨hrun, hmutex, ?_, hmade, hused, ?_, ?_, hwithin, hrounds, ?_, ?_, ?_⟩ <;>
        simp only [Consumer.load] <;> omega
  | broadcast value hpc =>
      simp only [hpc, Consumer.load] at hmutex hnum hused havail hrounds hfull
      refine ⟨hrun, ?_, ?_, ?_, ?_, ?_, ?_, ?_, ?_, ?_, ?_, ?_⟩ <;>
        simp only [Consumer.load, load_wake_producer] <;> omega
  | unlock value hpc =>
      simp only [hpc, Consumer.load] at hmutex hnum hused havail hrounds hfull
      refine ⟨hrun, ?_, hnum, hmade, hused, hroom, havail, hwithin, hrounds, ?_, hfull, ?_⟩ <;>
        simp only [Consumer.load, Bool.toNat_false] <;> omega
  | print value hpc hmore =>
      simp only [hpc, Consumer.load] at hmutex hnum hused havail hrounds hfull
      refine ⟨hrun, hmutex, hnum, hmade, hused, hroom, havail, hwithin, ?_, ?_, hfull, ?_⟩ <;>
        simp only [Consumer.load] <;> omega
  | leave value hpc hlast =>
      simp only [hpc, Consumer.load] at hmutex hnum hused havail hrounds hfull
      refine ⟨hrun, hmutex, hnum, hmade, hused, hroom, havail, hwithin, hrounds, ?_, hfull, ?_⟩ <;>
        simp only [Consumer.load] <;> omega

/-- A thread that is woken for no reason only stops sleeping. -/
theorem counts_wake_producer (h : Counts N s) (hpc : s.producer = .waiting) :
    Counts N { s with producer := .woken } := by
  rcases h with
    ⟨hrun, hmutex, hnum, hmade, hused, hroom, havail, hwithin, hrounds, hleft, hfull, hempty⟩
  simp only [hpc, Producer.load] at hmutex hnum hmade hroom hwithin hempty
  refine ⟨hrun, hmutex, hnum, hmade, hused, hroom, havail, hwithin, hrounds, hleft, ?_, hempty⟩
  simp only [Producer.load]
  omega

theorem counts_wake_consumer (h : Counts N s) (hpc : s.consumer = .waiting) :
    Counts N { s with consumer := .woken } := by
  rcases h with
    ⟨hrun, hmutex, hnum, hmade, hused, hroom, havail, hwithin, hrounds, hleft, hfull, hempty⟩
  simp only [hpc, Consumer.load] at hmutex hnum hused havail hrounds hfull
  refine ⟨hrun, hmutex, hnum, hmade, hused, hroom, havail, hwithin, hrounds, ?_, hfull, ?_⟩ <;>
    simp only [Consumer.load] <;> omega

theorem counts_start (N : Nat) (hsize : 0 < BUF_SIZE) : Counts N (start BUF_SIZE hsize) := by
  refine ⟨rfl, rfl, rfl, rfl, rfl, ?_, ?_, ?_, ?_, ?_, ?_, ?_⟩ <;>
    simp only [start, Producer.load, Consumer.load] <;> omega

end Counting

/-- The indices and the buffer follow the histories, which are made of the
    values in order. -/
structure Placed (hsize : 0 < BUF_SIZE) (s : State BUF_SIZE) : Prop where
  add : s.add = circular BUF_SIZE hsize (s.inserted.length - s.producer.load.pending)
  rem : s.rem = circular BUF_SIZE hsize (s.taken.length - s.consumer.load.pending)
  logged : Logged (circular BUF_SIZE hsize) s.buffer s.taken s.inserted
  inserted : s.inserted = values s.inserted.length
  taken : s.taken = s.consumed ++ s.consumer.hand

section Placing

variable {N : Nat} {s s' : State BUF_SIZE} {hsize : 0 < BUF_SIZE}

theorem values_succ (n : Nat) : values (n + 1) = values n ++ [(n : Int) + 1] := by
  rw [values, List.range_succ, List.map_append, List.map_singleton, values]

theorem values_mono {m n : Nat} (hle : m ≤ n) : values m <+: values n := by
  induction hle with
  | refl => exact List.prefix_rfl
  | step _ ih => exact ih.trans (values_succ _ ▸ List.prefix_append _ _)

theorem uncounted_le (pc : Consumer) : pc.load.uncounted ≤ pc.load.entering := by
  cases pc <;> simp [Consumer.load]

theorem hand_wake (pc : Consumer) : pc.wake.hand = pc.hand := by
  cases pc <;> rfl

theorem placed_producer (hcounts : Counts N s) (h : Placed hsize s) (hmove : ProducerMove N s s') :
    Placed hsize s' := by
  rcases h with ⟨hadd, hrem, hlogged, hinserted, htaken⟩
  cases hmove with
  | lock hpc hmore hfree =>
      rw [hpc] at hadd
      exact ⟨hadd, hrem, hlogged, hinserted, htaken⟩
  | overflow hpc hover => exact ⟨hadd, hrem, hlogged, hinserted, htaken⟩
  | check hpc =>
      rw [hpc] at hadd
      exact ⟨hadd, hrem, hlogged, hinserted, htaken⟩
  | wait hpc hfull =>
      rw [hpc] at hadd
      exact ⟨hadd, hrem, hlogged, hinserted, htaken⟩
  | pass hpc hroom =>
      rw [hpc] at hadd
      exact ⟨hadd, hrem, hlogged, hinserted, htaken⟩
  | relock hpc hfree =>
      rw [hpc] at hadd
      exact ⟨hadd, hrem, hlogged, hinserted, htaken⟩
  | store hpc =>
      have hnum := hcounts.num
      have hroom := hcounts.room
      have hmade := hcounts.made
      simp only [hpc, Producer.load] at hadd hnum hroom hmade
      have hlen : (s.inserted ++ [(s.i : Int)]).length = s.inserted.length + 1 := by
        rw [List.length_append, List.length_singleton]
      refine ⟨?_, hrem, ?_, ?_, htaken⟩
      · -- The position stays, and counts one value less than there are now.
        simp only [Producer.load]
        rw [hlen, Nat.add_sub_cancel]
        exact hadd
      · -- What waits is less than a turn away.
        rw [hadd]
        exact hlogged.write _ fun k hk hlt => circular_ne _ hsize k _ hlt (by omega)
      · have hi : (s.i : Int) = s.inserted.length + 1 := by omega
        simp only [hlen]
        rw [values_succ, ← hinserted, hi]
  | advance hpc =>
      have hnum := hcounts.num
      have havail := hcounts.avail
      have hle := uncounted_le s.consumer
      simp only [hpc, Producer.load] at hadd hnum
      refine ⟨?_, hrem, hlogged, hinserted, htaken⟩
      simp only [Producer.load]
      rw [hadd, nextSlot_circular]
      -- The value just stored is one of them.
      congr 1
      omega
  | count hpc =>
      rw [hpc] at hadd
      exact ⟨hadd, hrem, hlogged, hinserted, htaken⟩
  | broadcast hpc =>
      rw [hpc] at hadd
      refine ⟨hadd, ?_, hlogged, hinserted, ?_⟩
      · rw [load_wake_consumer]
        exact hrem
      · rw [hand_wake]
        exact htaken
  | unlock hpc =>
      rw [hpc] at hadd
      exact ⟨hadd, hrem, hlogged, hinserted, htaken⟩

theorem placed_consumer (hcounts : Counts N s) (h : Placed hsize s) (hmove : ConsumerMove N s s') :
    Placed hsize s' := by
  rcases h with ⟨hadd, hrem, hlogged, hinserted, htaken⟩
  cases hmove with
  | lock hpc hfree =>
      rw [hpc] at hrem htaken
      exact ⟨hadd, hrem, hlogged, hinserted, htaken⟩
  | underflow hpc hunder => exact ⟨hadd, hrem, hlogged, hinserted, htaken⟩
  | check hpc =>
      rw [hpc] at hrem htaken
      exact ⟨hadd, hrem, hlogged, hinserted, htaken⟩
  | wait hpc hempty =>
      rw [hpc] at hrem htaken
      exact ⟨hadd, hrem, hlogged, hinserted, htaken⟩
  | pass hpc hnum =>
      rw [hpc] at hrem htaken
      exact ⟨hadd, hrem, hlogged, hinserted, htaken⟩
  | relock hpc hfree =>
      rw [hpc] at hrem htaken
      exact ⟨hadd, hrem, hlogged, hinserted, htaken⟩
  | take hpc =>
      have hnum := hcounts.num
      have havail := hcounts.avail
      simp only [hpc, Consumer.load, Consumer.hand, List.append_nil] at hrem htaken hnum havail
      have hlen : (s.taken ++ [s.buffer s.rem]).length = s.taken.length + 1 := by
        rw [List.length_append, List.length_singleton]
      refine ⟨hadd, ?_, ?_, hinserted, ?_⟩
      · simp only [Consumer.load]
        rw [hlen, Nat.add_sub_cancel]
        exact hrem
      · simp only []
        rw [hrem]
        exact hlogged.read (by omega)
      · simp only [Consumer.hand]
        rw [← htaken]
  | advance value hpc =>
      simp only [hpc, Consumer.load] at hrem
      rw [hpc] at htaken
      -- The value in hand is one of those taken.
      have hlen := congrArg List.length htaken
      simp only [Consumer.hand, List.length_append, List.length_singleton] at hlen
      refine ⟨hadd, ?_, hlogged, hinserted, htaken⟩
      simp only [Consumer.load]
      rw [hrem, nextSlot_circular]
      congr 1
      omega
  | count value hpc =>
      rw [hpc] at hrem htaken
      exact ⟨hadd, hrem, hlogged, hinserted, htaken⟩
  | broadcast value hpc =>
      rw [hpc] at hrem htaken
      refine ⟨?_, hrem, hlogged, hinserted, htaken⟩
      rw [load_wake_producer]
      exact hadd
  | unlock value hpc =>
      rw [hpc] at hrem htaken
      exact ⟨hadd, hrem, hlogged, hinserted, htaken⟩
  | print value hpc hmore =>
      rw [hpc] at hrem htaken
      exact ⟨hadd, hrem, hlogged, hinserted, htaken.trans (List.append_nil _).symm⟩
  | leave value hpc hlast =>
      rw [hpc] at hrem htaken
      exact ⟨hadd, hrem, hlogged, hinserted, htaken.trans (List.append_nil _).symm⟩

theorem placed_wake_producer (h : Placed hsize s) (hpc : s.producer = .waiting) :
    Placed hsize { s with producer := .woken } := by
  have hadd := h.add
  rw [hpc] at hadd
  exact ⟨hadd, h.rem, h.logged, h.inserted, h.taken⟩

theorem placed_wake_consumer (h : Placed hsize s) (hpc : s.consumer = .waiting) :
    Placed hsize { s with consumer := .woken } := by
  have hrem := h.rem
  have htaken := h.taken
  rw [hpc] at hrem htaken
  exact ⟨h.add, hrem, h.logged, h.inserted, htaken⟩

theorem placed_start : Placed hsize (start BUF_SIZE hsize) :=
  ⟨Fin.ext (by simp [start, circular]), Fin.ext (by simp [start, circular]), rfl, rfl, rfl⟩

end Placing

/-- The invariant. -/
structure Sound (N : Nat) (hsize : 0 < BUF_SIZE) (s : State BUF_SIZE) : Prop where
  counts : Counts N s
  placed : Placed hsize s

/-- How far the producer is from the end of its round. -/
def Producer.rank : Producer → Nat
  | .ready => 20
  | .locked => 19
  | .woken => 18
  | .testing => 17
  | .waiting => 16
  | .storing => 15
  | .advancing => 14
  | .counting => 13
  | .broadcasting => 12
  | .unlocking => 8

/-- How far the consumer is from the end of its round. -/
def Consumer.rank : Consumer → Nat
  | .locked => 19
  | .woken => 18
  | .testing => 17
  | .waiting => 16
  | .taking => 15
  | .advancing _ => 14
  | .counting _ => 13
  | .broadcasting _ => 12
  | .unlocking _ => 8
  | .printing _ => 7
  | .ready => 4
  | .quit => 0

/-- What is left to do: whole rounds and the rest of the present ones. A
    broadcast is worth more than the waking of the other thread costs. -/
def rank (N : Nat) (s : State BUF_SIZE) : Nat :=
  30 * (N + 1 - s.i) + s.producer.rank + (30 * (N + 1 - s.kk) + s.consumer.rank)

section Runs

variable {N : Nat} {s s' : State BUF_SIZE} {hsize : 0 < BUF_SIZE}

theorem sound_start : Sound N hsize (start BUF_SIZE hsize) := ⟨counts_start N hsize, placed_start⟩

theorem sound_step (h : Sound N hsize s) {e : Event} (hstep : step N s e = some s') :
    Sound N hsize s' := by
  cases e with
  | producer =>
      have hmove := producer_moves (Option.ite_none_left_eq_some.mp hstep).2
      exact ⟨counts_producer h.counts hmove, placed_producer h.counts h.placed hmove⟩
  | consumer =>
      have hmove := consumer_moves (Option.ite_none_left_eq_some.mp hstep).2
      exact ⟨counts_consumer h.counts hmove, placed_consumer h.counts h.placed hmove⟩
  | wake_producer =>
      rcases Option.ite_none_right_eq_some.mp hstep with ⟨⟨_, hpc⟩, hs'⟩
      rw [← Option.some.inj hs']
      exact ⟨counts_wake_producer h.counts hpc, placed_wake_producer h.placed hpc⟩
  | wake_consumer =>
      rcases Option.ite_none_right_eq_some.mp hstep with ⟨⟨_, hpc⟩, hs'⟩
      rw [← Option.some.inj hs']
      exact ⟨counts_wake_consumer h.counts hpc, placed_wake_consumer h.placed hpc⟩

theorem sound_reachable (hreach : Reachable (step N) (start BUF_SIZE hsize) s) :
    Sound N hsize s :=
  hreach.invariant sound_start fun _ _ _ h _ hstep => sound_step h hstep

theorem rank_wake_producer (pc : Producer) : pc.wake.rank ≤ pc.rank + 2 := by
  cases pc <;> decide

theorem rank_wake_consumer (pc : Consumer) : pc.wake.rank ≤ pc.rank + 2 := by
  cases pc <;> simp only [Consumer.wake, Consumer.rank] <;> omega

theorem rank_producer (h : Counts N s) (hmove : ProducerMove N s s') : rank N s' < rank N s := by
  unfold rank
  cases hmove with
  | overflow hpc hover =>
      have hroom := h.room
      rw [hpc] at hroom
      simp only [Producer.load] at hroom
      omega
  | broadcast hpc =>
      have hwake := rank_wake_consumer s.consumer
      simp only [hpc, Producer.rank]
      omega
  | unlock hpc =>
      -- A whole round is worth more than what a new one begins with.
      have hwithin := h.within
      simp only [hpc, Producer.load] at hwithin
      simp only [hpc, Producer.rank]
      omega
  | _ hpc =>
      simp only [hpc, Producer.rank]
      omega

theorem rank_consumer (h : Counts N s) (hmove : ConsumerMove N s s') : rank N s' < rank N s := by
  unfold rank
  cases hmove with
  | lock hpc hfree =>
      have hrounds := h.rounds
      simp only [hpc, Consumer.load] at hrounds
      simp only [hpc, Consumer.rank]
      omega
  | underflow hpc hunder =>
      have havail := h.avail
      rw [hpc] at havail
      simp only [Consumer.load] at havail
      omega
  | broadcast value hpc =>
      have hwake := rank_wake_producer s.producer
      simp only [hpc, Consumer.rank]
      omega
  | check hpc | wait hpc _ | pass hpc _ | relock hpc _ | take hpc =>
      simp only [hpc, Consumer.rank]
      omega
  | advance value hpc | count value hpc | unlock value hpc | print value hpc _ | leave value hpc _ =>
      simp only [hpc, Consumer.rank]
      omega

/-- A step makes the rest smaller, unless it wakes a thread for no reason. -/
theorem rank_step (h : Counts N s) {e : Event} (hreal : e.spurious = false)
    (hstep : step N s e = some s') : rank N s' < rank N s := by
  cases e with
  | producer => exact rank_producer h (producer_moves (Option.ite_none_left_eq_some.mp hstep).2)
  | consumer => exact rank_consumer h (consumer_moves (Option.ite_none_left_eq_some.mp hstep).2)
  | wake_producer => cases hreal
  | wake_consumer => cases hreal

/-- A producer that cannot go on has finished, sleeps or waits for the mutex. -/
theorem producer_stuck (h : producer N s = none) :
    (s.producer = .ready ∧ N < s.i) ∨ s.producer = .waiting ∨
      s.producer.load.holds = 0 ∧ s.mutex = true := by
  unfold producer at h
  cases hpc : s.producer <;> simp only [hpc] at h
  case ready =>
    by_cases hmore : s.i ≤ N
    · cases hmutex : s.mutex with
      | false =>
          rw [if_pos ⟨hmore, hmutex⟩] at h
          cases h
      | true => exact Or.inr (Or.inr ⟨rfl, rfl⟩)
    · exact Or.inl ⟨rfl, Nat.lt_of_not_le hmore⟩
  case waiting => exact Or.inr (Or.inl rfl)
  case woken =>
    split_ifs at h with hmutex
    exact Or.inr (Or.inr ⟨rfl, hmutex⟩)
  all_goals first | cases h | (split_ifs at h)

/-- A consumer that cannot go on has left its loop, sleeps or waits for the
    mutex. -/
theorem consumer_stuck (h : consumer N s = none) :
    s.consumer = .quit ∨ s.consumer = .waiting ∨
      s.consumer.load.holds = 0 ∧ s.mutex = true := by
  unfold consumer at h
  cases hpc : s.consumer <;> simp only [hpc] at h
  case ready =>
    split_ifs at h with hmutex
    exact Or.inr (Or.inr ⟨rfl, hmutex⟩)
  case waiting => exact Or.inr (Or.inl rfl)
  case woken =>
    split_ifs at h with hmutex
    exact Or.inr (Or.inr ⟨rfl, hmutex⟩)
  case quit => exact Or.inl rfl
  all_goals first | cases h | (split_ifs at h)

/-- Not both sleep: the ring would have to be full and empty. -/
theorem not_both_waiting (h : Counts N s) (hsize : 0 < BUF_SIZE) :
    ¬ (s.producer = .waiting ∧ s.consumer = .waiting) := by
  rintro ⟨hproducer, hconsumer⟩
  have hfull := h.full (by rw [hproducer]; rfl)
  have hempty := h.empty (by rw [hconsumer]; rfl)
  simp only [hproducer, hconsumer, Producer.load, Consumer.load] at hfull hempty
  omega

/-- If nobody can go on, everything has been consumed. -/
theorem stuck_consumed (h : Sound N hsize s)
    (hstuck : ∀ e : Event, e.spurious = false → step N s e = none) :
    s.consumed = values N := by
  have hproducer := hstuck .producer rfl
  have hconsumer := hstuck .consumer rfl
  simp only [step, h.counts.running, Bool.false_eq_true, if_false] at hproducer hconsumer
  have hp := producer_stuck hproducer
  have hc := consumer_stuck hconsumer
  -- Nobody is left who could have the mutex.
  have hfree : s.mutex = false := by
    have hmutex := h.counts.mutex
    have hp0 : s.producer.load.holds = 0 := by
      rcases hp with ⟨hpc, _⟩ | hpc | ⟨hzero, _⟩
      · rw [hpc]; rfl
      · rw [hpc]; rfl
      · exact hzero
    have hc0 : s.consumer.load.holds = 0 := by
      rcases hc with hpc | hpc | ⟨hzero, _⟩
      · rw [hpc]; rfl
      · rw [hpc]; rfl
      · exact hzero
    rw [hp0, hc0] at hmutex
    exact Bool.toNat_eq_zero.mp hmutex.symm
  rw [hfree] at hp hc
  simp only [Bool.false_eq_true, and_false, or_false] at hp hc
  have hle := h.placed.logged.length_le
  have hnum := h.counts.num
  have hmade := h.counts.made
  have hused := h.counts.used
  have hwithin := h.counts.within
  have hleft := h.counts.left
  have hempty := h.counts.empty
  -- Everything has been made and taken.
  have hall : s.inserted.length = N ∧ s.taken.length = N ∧ s.consumer.hand = [] := by
    rcases hp with ⟨hpc, hlast⟩ | hpc <;> rcases hc with hcc | hcc <;>
      simp only [hpc, hcc, Producer.load, Consumer.load] at hnum hmade hused hwithin hleft hempty
    · have hrounds := hleft trivial
      refine ⟨by omega, by omega, by rw [hcc]; rfl⟩
    · have hzero := hempty trivial
      refine ⟨by omega, by omega, by rw [hcc]; rfl⟩
    · have hrounds := hleft trivial
      omega
    · exact absurd ⟨hpc, hcc⟩ (not_both_waiting h.counts hsize)
  rcases hall with ⟨hinserted, htaken, hhand⟩
  have hprefix : s.taken <+: s.inserted := ⟨_, h.placed.logged⟩
  have hsame : s.taken = s.inserted := hprefix.eq_of_length (htaken.trans hinserted.symm)
  have hconsumed := h.placed.taken
  rw [hhand, List.append_nil] at hconsumed
  rw [← hconsumed, hsame, h.placed.inserted, hinserted]

/-- What has been consumed is the beginning of the values. -/
theorem consumed_values (h : Sound N hsize s) : s.consumed <+: values N := by
  have hmade := h.counts.made
  have hwithin := h.counts.within
  have hbusy : s.producer.load.stored ≤ s.producer.load.busy := by
    cases s.producer <;> decide
  have hprefix : s.taken <+: s.inserted := ⟨_, h.placed.logged⟩
  have hconsumed : s.consumed <+: s.taken := ⟨_, h.placed.taken.symm⟩
  have hvalues : s.inserted <+: values N := by
    rw [h.placed.inserted]
    exact values_mono (by omega)
  exact (hconsumed.trans hprefix).trans hvalues

/-- While nobody has the mutex, the indices and the number agree. -/
theorem free_bounds (h : Sound N hsize s) (hfree : s.mutex = false) :
    0 ≤ s.num ∧ s.num ≤ BUF_SIZE ∧ ((s.rem : Int) + s.num) % BUF_SIZE = s.add := by
  have hmutex := h.counts.mutex
  have hnum := h.counts.num
  have hroom := h.counts.room
  have hle := h.placed.logged.length_le
  rw [hfree, Bool.toNat_false] at hmutex
  have hp : s.producer.load.pending ≤ s.producer.load.holds ∧
      s.producer.load.uncounted ≤ s.producer.load.holds := by
    cases s.producer <;> decide
  have hc : s.consumer.load.pending ≤ s.consumer.load.holds ∧
      s.consumer.load.uncounted ≤ s.consumer.load.holds := by
    cases s.consumer <;> simp [Consumer.load]
  refine ⟨by omega, by omega, ?_⟩
  have hadd : (s.add : Nat) = s.inserted.length % BUF_SIZE := by
    rw [h.placed.add, show s.producer.load.pending = 0 by omega]
    rfl
  have hrem : (s.rem : Nat) = s.taken.length % BUF_SIZE := by
    rw [h.placed.rem, show s.consumer.load.pending = 0 by omega]
    rfl
  rw [hadd, hrem, show s.num = s.inserted.length - s.taken.length by omega]
  push_cast
  rw [Int.emod_add_emod]
  congr 1
  omega

end Runs

/-- For any number of items and any size of the buffer, in every state reached
    by any interleaving, whatever spurious wake-ups there are: what has been
    consumed is the beginning of `1, …, N`; it is all of it where nobody can go
    on, and such a state can be reached without any further spurious wake-up;
    while the mutex is free `num` is within bounds and tells the distance of the
    indices; `exit` has not been called; and not both threads sleep. -/
theorem ring_sound (N BUF_SIZE : Nat) (hsize : 0 < BUF_SIZE) (s : State BUF_SIZE)
    (hreach : Reachable (step N) (start BUF_SIZE hsize) s) :
    s.consumed <+: values N ∧
    ((∀ e : Event, e.spurious = false → step N s e = none) → s.consumed = values N) ∧
    (∃ t, Reaches (step N) (fun _ e => e.spurious = false) s t ∧ t.consumed = values N) ∧
    (s.mutex = false →
      0 ≤ s.num ∧ s.num ≤ BUF_SIZE ∧ ((s.rem : Int) + s.num) % BUF_SIZE = s.add) ∧
    s.exited = false ∧
    ¬ (s.producer = .waiting ∧ s.consumer = .waiting) := by
  have h := sound_reachable hreach
  refine ⟨consumed_values h, stuck_consumed h, ?_, free_bounds h, h.counts.running,
    not_both_waiting h.counts hsize⟩
  have hnext : ∀ t, Sound N hsize t → ¬ t.consumed = values N → ∃ e u,
      Event.spurious e = false ∧ step N t e = some u ∧ Sound N hsize u ∧ rank N u < rank N t := by
    intro t ht hmore
    by_contra hnone
    refine hmore (stuck_consumed ht fun e hreal => ?_)
    cases hstep : step N t e with
    | none => rfl
    | some u =>
        exact absurd ⟨e, u, hreal, hstep, sound_step ht hstep, rank_step ht.counts hreal hstep⟩
          hnone
  rcases reaches_goal (rank N) hnext _ s h (Nat.le_refl _) with ⟨t, hpath, _, hdone⟩
  exact ⟨t, hpath, hdone⟩

/-- The consumer sleeps on the empty ring, is woken for no reason and sleeps
    again. The producer fills the ring and sleeps in turn. -/
def wokenTwice : List Event :=
  List.replicate 3 .consumer ++ [.wake_consumer] ++ List.replicate 2 .consumer ++
    List.replicate 19 .producer

/-- Three values and a ring of two slots. It is full, and all values arrive. -/
theorem ring_sound_run :
    ∃ s, run (step 3) (start 2 (by decide)) wokenTwice = some s ∧ s.producer = .waiting ∧
      s.num = 2 ∧ s.consumed <+: [1, 2, 3] ∧
      ∃ t, Reaches (step 3) (fun _ e => e.spurious = false) s t ∧ t.consumed = [1, 2, 3] := by
  have hend : (run (step 3) (start 2 (by decide)) wokenTwice).map
      (fun s => (s.producer, s.num)) = some (.waiting, 2) := by decide +kernel
  rcases Option.map_eq_some_iff.mp hend with ⟨s, hrun, hlast⟩
  rw [Prod.mk.injEq] at hlast
  rcases ring_sound 3 2 (by decide) s (reachable_of_run hrun) with ⟨horder, _, hall, _⟩
  exact ⟨s, hrun, hlast.1, hlast.2, horder, hall⟩

end Condition

end Kolos

end OsLabs
