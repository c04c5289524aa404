import Mathlib.Data.Int.Order.Basic
import Mathlib.Data.List.Induction
import OsLabs.Core.Pile

/-!
# A Stack with Condition Variables

`kolos/kwolos/gw/zad1` as a transition system, for any `BUFFER_SIZE` and
`VALUE_COUNT` in place of 10 and 20. A producer puts the numbers from 0 on top
of a stack in an array, and a consumer takes the top one off and processes it.
One mutex protects the stack; the producer waits while it is full, the consumer
while it is empty, and each signals the other when it has changed `count`. The
functions of `checks.h` that the threads and `main` call are part of the system,
with what they print. They compare with 20 values whatever `VALUE_COUNT` is.

A step is a section protected by the mutex, up to its end or to where it waits,
or what a thread does between two sections. `pthread_cond_wait` gives the mutex
back as it begins to sleep, and a thread that has been woken goes through its
section from the test on. A sleeping thread is woken by a signal, or for no
reason, which is an event of its own. Only one thread ever waits on a condition
variable, so a signal wakes whoever waits there, and the broadcasts of
`checks.h` come before their thread waits for the first time and wake nobody.
Sums are exact, as they are in an `int` for up to 65536 values.

Which values are processed first depends on the threads. What is certain is that
they come off a pile: the words of stores and removals that can happen are
exactly those that a pile of `BUFFER_SIZE` elements allows.

## Main definitions

* `Producer`, `Consumer`, `Main`: Where a thread stands.
* `checkMutex`, `checkCond`: The checks of `checks.h`.
* `State`, `Event`, `step`, `start`: The transition system.
* `lying`, `coming`: The values on the stack, and those to come.
* `due`: What is printed on the way to a state.
* `Checked`, `Places`, `Piled`, `Joined`, `Sound`: The invariant.
* `ProducerMove`, `ConsumerMove`: What a step of a thread does.
* `rank`: What is left to do.

## Theorems

* `producer_moves`, `consumer_moves`: Every step of a thread is such a move.
* `sound_step`: A step keeps the invariant.
* `rank_step`: A step makes the rest smaller, unless it wakes a thread for no
  reason.
* `stuck_returned`: If nobody can go on, `main` has returned.
* `stack_sound`: What comes off the stack, and where the array is used.
* `words_exact`: Every word of a pile happens, and no other.
* `checks_pass`: All checks pass at the end of every run.
-/

namespace OsLabs

namespace Kolos

namespace Stack

/-- What the pointers of `checks.h` can point to. -/
inductive Address
  | mutex
  | producer_cond
  | consumer_cond
  deriving DecidableEq

/-- The lines that are printed, with PASS or FAIL. -/
inductive Check
  | mutex_producer
  | mutex_consumer
  | cond_producer
  | cond_consumer
  | awaiting
  | processing
  deriving DecidableEq

/-- Where the producer stands. -/
inductive Producer
  | check_mutex
  /-- In `check_cond_producer`, before the broadcast. -/
  | broadcast
  /-- In its section. -/
  | check_cond
  /-- At the head of the loop. -/
  | loop
  | waiting
  | woken
  | returned
  deriving DecidableEq

/-- Where the consumer stands. -/
inductive Consumer
  | check_mutex
  | broadcast
  | check_cond
  | loop
  | waiting
  | woken
  | returned
  deriving DecidableEq

/-- Where `main` stands, once it has created the threads. -/
inductive Main
  | joining_producer
  | joining_consumer
  | check_wait
  | check_results
  | returned
  deriving DecidableEq

structure State where
  buffer : Int → Int
  count : Int
  producer : Producer
  /-- The producer's `i`. -/
  i : Nat
  consumer : Consumer
  /-- The consumer's `i`. -/
  rounds : Nat
  mutex1 : Option Address
  cond1 : Option Address
  processed_value_count : Int
  processed_value_sum : Int
  main : Main
  printed : List (Check × Bool)
  /-- A thread has locked a mutex that is `NULL`. -/
  crashed : Bool
  /-- The indices at which the array has been used. -/
  used : List Int
  /-- The stores and removals, in order. -/
  word : List PileOp
  /-- The values processed, in order. -/
  processed : List Int

inductive Event
  | producer
  | consumer
  | main
  /-- The producer is woken for no reason. -/
  | wake_producer
  | wake_consumer
  deriving DecidableEq

/-- The event wakes a thread for no reason. -/
def Event.spurious : Event → Bool
  | .wake_producer => true
  | .wake_consumer => true
  | _ => false

/-- The producer after a signal to `producer_cond`. -/
def Producer.wake : Producer → Producer
  | .waiting => .woken
  | pc => pc

/-- The consumer after a signal to `consumer_cond`. -/
def Consumer.wake : Consumer → Consumer
  | .waiting => .woken
  | pc => pc

/-- The section of `check_mutex_producer` and `check_mutex_consumer`. -/
def checkMutex (s : State) (check : Check) (given : Address) : State :=
  match s.mutex1 with
  | none => { s with mutex1 := some given, printed := s.printed ++ [(check, true)] }
  | some mutex1 => { s with printed := s.printed ++ [(check, decide (mutex1 = given))] }

/-- The section of `check_cond_producer` and `check_cond_consumer`, which locks
    `mutex1`. -/
def checkCond (s : State) (check : Check) (given : Address) : State :=
  match s.mutex1 with
  | none => { s with crashed := true }
  | some _ => match s.cond1 with
    | none => { s with cond1 := some given, printed := s.printed ++ [(check, true)] }
    | some cond1 => { s with printed := s.printed ++ [(check, decide (cond1 ≠ given))] }

/-- The section of the producer, from the test on. -/
def produce (BUFFER_SIZE : Nat) (s : State) : State :=
  if s.count = BUFFER_SIZE then { s with producer := .waiting }
  else
    { s with
      buffer := Function.update s.buffer s.count s.i
      count := s.count + 1
      consumer := s.consumer.wake
      producer := .loop
      i := s.i + 1
      used := s.used ++ [s.count]
      word := s.word ++ [.push] }

/-- The section of the consumer, from the test on, with `process_value`. -/
def consume (s : State) : State :=
  if s.count = 0 then { s with consumer := .waiting }
  else
    { s with
      count := s.count - 1
      processed_value_sum := s.processed_value_sum + s.buffer (s.count - 1)
      processed_value_count := s.processed_value_count + 1
      producer := s.producer.wake
      consumer := .loop
      rounds := s.rounds + 1
      used := s.used ++ [s.count - 1]
      word := s.word ++ [.pop]
      processed := s.processed ++ [s.buffer (s.count - 1)] }

/-- The next step of the producer. -/
def producer (BUFFER_SIZE VALUE_COUNT : Nat) (s : State) : Option State :=
  match s.producer with
  | .check_mutex => some { checkMutex s .mutex_producer .mutex with producer := .broadcast }
  | .broadcast => some { s with producer := .check_cond }
  | .check_cond => some { checkCond s .cond_producer .producer_cond with producer := .loop }
  | .loop =>
    if s.i < VALUE_COUNT then some (produce BUFFER_SIZE s)
    else some { s with producer := .returned }
  | .waiting => none
  | .woken => some (produce BUFFER_SIZE s)
  | .returned => none

/-- The next step of the consumer. -/
def consumer (VALUE_COUNT : Nat) (s : State) : Option State :=
  match s.consumer with
  | .check_mutex => some { checkMutex s .mutex_consumer .mutex with consumer := .broadcast }
  | .broadcast => some { s with consumer := .check_cond }
  | .check_cond => some { checkCond s .cond_consumer .consumer_cond with consumer := .loop }
  | .loop =>
    if s.rounds < VALUE_COUNT then some (consume s) else some { s with consumer := .returned }
  | .waiting => none
  | .woken => some (consume s)
  | .returned => none

/-- The next step of `main`. -/
def main (s : State) : Option State :=
  match s.main with
  | .joining_producer =>
    if s.producer = .returned then some { s with main := .joining_consumer } else none
  | .joining_consumer =>
    if s.consumer = .returned then some { s with main := .check_wait } else none
  | .check_wait => some
    { s with
      main := .check_results
      printed := s.printed ++ [(.awaiting, decide (s.processed_value_count = 20))] }
  | .check_results => some
    { s with
      main := .returned
      printed := s.printed ++
        [(.processing, decide (s.processed_value_sum = (20 / 2) * (0 + 19)))] }
  | .returned => none

def step (BUFFER_SIZE VALUE_COUNT : Nat) (s : State) : Event → Option State
  | .producer => if s.crashed then none else producer BUFFER_SIZE VALUE_COUNT s
  | .consumer => if s.crashed then none else consumer VALUE_COUNT s
  | .main => if s.crashed then none else main s
  | .wake_producer =>
    if s.crashed = false ∧ s.producer = .waiting then some { s with producer := .woken } else none
  | .wake_consumer =>
    if s.crashed = false ∧ s.consumer = .waiting then some { s with consumer := .woken } else none

/-- The state in which `main` has created the threads. -/
def start : State where
  buffer _ := 0
  count := 0
  producer := .check_mutex
  i := 0
  consumer := .check_mutex
  rounds := 0
  mutex1 := none
  cond1 := none
  processed_value_count := 0
  processed_value_sum := 0
  main := .joining_producer
  printed := []
  crashed := false
  used := []
  word := []
  processed := []

/-- The values on the stack, from the top. -/
def lying (s : State) : List Int :=
  ((List.range s.count.toNat).map fun n : Nat => s.buffer n).reverse

/-- The values from `i` on. -/
def coming (i VALUE_COUNT : Nat) : List Int :=
  (List.range' i (VALUE_COUNT - i)).map fun n : Nat => (n : Int)

/-- The sum of values, from the left. -/
def total (values : List Int) : Int := values.foldl (fun sum value => sum + value) 0

/-- The producer has passed its checks. -/
def Producer.passed : Producer → Bool × Bool
  | .check_mutex => (false, false)
  | .broadcast => (true, false)
  | .check_cond => (true, false)
  | _ => (true, true)

/-- The consumer has passed its checks. -/
def Consumer.passed : Consumer → Bool × Bool
  | .check_mutex => (false, false)
  | .broadcast => (true, false)
  | .check_cond => (true, false)
  | _ => (true, true)

/-- What `main` has printed. -/
def Main.due (VALUE_COUNT : Nat) : Main → List (Check × Bool)
  | .check_results => [(.awaiting, decide (VALUE_COUNT = 20))]
  | .returned => [(.awaiting, decide (VALUE_COUNT = 20)),
      (.processing, decide (total (coming 0 VALUE_COUNT) = 190))]
  | _ => []

/-- A line that has been printed once its check is passed. -/
def line (check : Check) (passed : Bool) : List (Check × Bool) :=
  if passed then [(check, true)] else []

/-- What has been printed, in some order. -/
def due (VALUE_COUNT : Nat) (s : State) : List (Check × Bool) :=
  line .mutex_producer s.producer.passed.1 ++ line .cond_producer s.producer.passed.2 ++
    (line .mutex_consumer s.consumer.passed.1 ++ line .cond_consumer s.consumer.passed.2) ++
    s.main.due VALUE_COUNT

/-- The pointers of `checks.h`, and what has been printed. -/
structure Checked (VALUE_COUNT : Nat) (s : State) : Prop where
  alive : s.crashed = false
  mutex : s.mutex1 = none ∧ s.producer.passed.1 = false ∧ s.consumer.passed.1 = false ∨
    s.mutex1 = some .mutex
  cond : s.cond1 = none ∧ s.producer.passed.2 = false ∧ s.consumer.passed.2 = false ∨
    s.cond1 = some .producer_cond ∧ s.producer.passed.2 = true ∨
    s.cond1 = some .consumer_cond ∧ s.consumer.passed.2 = true
  printed : s.printed.Perm (due VALUE_COUNT s)

/-- How the threads stand to the stack. -/
structure Places (BUFFER_SIZE VALUE_COUNT : Nat) (s : State) : Prop where
  low : 0 ≤ s.count
  high : s.count ≤ BUFFER_SIZE
  made : s.i ≤ VALUE_COUNT
  taken : s.rounds ≤ VALUE_COUNT
  full : s.producer = .waiting → s.count = BUFFER_SIZE ∧ s.i < VALUE_COUNT
  empty : s.consumer = .waiting → s.count = 0 ∧ s.rounds < VALUE_COUNT
  producer_woken : s.producer = .woken → s.i < VALUE_COUNT
  consumer_woken : s.consumer = .woken → s.rounds < VALUE_COUNT
  producer_done : s.producer = .returned → s.i = VALUE_COUNT
  consumer_done : s.consumer = .returned → s.rounds = VALUE_COUNT

/-- What has been processed, and what is on the stack and to come. -/
structure Piled (BUFFER_SIZE VALUE_COUNT : Nat) (s : State) : Prop where
  pile : run (pileStep BUFFER_SIZE) (Pile.of (coming 0 VALUE_COUNT)) s.word
    = some ⟨coming s.i VALUE_COUNT, lying s, s.processed⟩
  rounds : s.rounds = s.processed.length
  count : s.processed_value_count = s.processed.length
  sum : s.processed_value_sum = total s.processed
  used : ∀ x ∈ s.used, 0 ≤ x ∧ x < BUFFER_SIZE

/-- How far `main` has come. -/
structure Joined (s : State) : Prop where
  producer : s.main ≠ .joining_producer → s.producer = .returned
  consumer : s.main ≠ .joining_producer → s.main ≠ .joining_consumer → s.consumer = .returned

/-- The invariant. -/
structure Sound (BUFFER_SIZE VALUE_COUNT : Nat) (s : State) : Prop where
  checked : Checked VALUE_COUNT s
  places : Places BUFFER_SIZE VALUE_COUNT s
  piled : Piled BUFFER_SIZE VALUE_COUNT s
  joined : Joined s

/-- A step of the producer. -/
inductive ProducerMove (BUFFER_SIZE VALUE_COUNT : Nat) (s : State) : State → Prop
  | check_mutex (hpc : s.producer = .check_mutex) :
      ProducerMove BUFFER_SIZE VALUE_COUNT s
        { checkMutex s .mutex_producer .mutex with producer := .broadcast }
  | broadcast (hpc : s.producer = .broadcast) :
      ProducerMove BUFFER_SIZE VALUE_COUNT s { s with producer := .check_cond }
  | check_cond (hpc : s.producer = .check_cond) :
      ProducerMove BUFFER_SIZE VALUE_COUNT s
        { checkCond s .cond_producer .producer_cond with producer := .loop }
  | wait (hpc : s.producer = .loop ∧ s.i < VALUE_COUNT ∨ s.producer = .woken)
      (hfull : s.count = BUFFER_SIZE) :
      ProducerMove BUFFER_SIZE VALUE_COUNT s { s with producer := .waiting }
  | store (hpc : s.producer = .loop ∧ s.i < VALUE_COUNT ∨ s.producer = .woken)
      (hroom : s.count ≠ BUFFER_SIZE) :
      ProducerMove BUFFER_SIZE VALUE_COUNT s
        { s with
          buffer := Function.update s.buffer s.count s.i
          count := s.count + 1
          consumer := s.consumer.wake
          producer := .loop
          i := s.i + 1
          used := s.used ++ [s.count]
          word := s.word ++ [.push] }
  | leave (hpc : s.producer = .loop) (hdone : VALUE_COUNT ≤ s.i) :
      ProducerMove BUFFER_SIZE VALUE_COUNT s { s with producer := .returned }

/-- A step of the consumer. -/
inductive ConsumerMove (VALUE_COUNT : Nat) (s : State) : State → Prop
  | check_mutex (hpc : s.consumer = .check_mutex) :
      ConsumerMove VALUE_COUNT s
        { checkMutex s .mutex_consumer .mutex with consumer := .broadcast }
  | broadcast (hpc : s.consumer = .broadcast) :
      ConsumerMove VALUE_COUNT s { s with consumer := .check_cond }
  | check_cond (hpc : s.consumer = .check_cond) :
      ConsumerMove VALUE_COUNT s
        { checkCond s .cond_consumer .consumer_cond with consumer := .loop }
  | wait (hpc : s.consumer = .loop ∧ s.rounds < VALUE_COUNT ∨ s.consumer = .woken)
      (hempty : s.count = 0) :
      ConsumerMove VALUE_COUNT s { s with consumer := .waiting }
  | remove (hpc : s.consumer = .loop ∧ s.rounds < VALUE_COUNT ∨ s.consumer = .woken)
      (hsome : s.count ≠ 0) :
      ConsumerMove VALUE_COUNT s
        { s with
          count := s.count - 1
          processed_value_sum := s.processed_value_sum + s.buffer (s.count - 1)
          processed_value_count := s.processed_value_count + 1
          producer := s.producer.wake
          consumer := .loop
          rounds := s.rounds + 1
          used := s.used ++ [s.count - 1]
          word := s.word ++ [.pop]
          processed := s.processed ++ [s.buffer (s.count - 1)] }
  | leave (hpc : s.consumer = .loop) (hdone : VALUE_COUNT ≤ s.rounds) :
      ConsumerMove VALUE_COUNT s { s with consumer := .returned }

section Moves

variable {BUFFER_SIZE VALUE_COUNT : Nat} {s s' : State}

theorem produce_moves (hpc : s.producer = .loop ∧ s.i < VALUE_COUNT ∨ s.producer = .woken) :
    ProducerMove BUFFER_SIZE VALUE_COUNT s (produce BUFFER_SIZE s) := by
  unfold produce
  by_cases hfull : s.count = BUFFER_SIZE
  · rw [if_pos hfull]
    exact ProducerMove.wait hpc hfull
  · rw [if_neg hfull]
    exact ProducerMove.store hpc hfull

theorem producer_moves (hstep : producer BUFFER_SIZE VALUE_COUNT s = some s') :
    ProducerMove BUFFER_SIZE VALUE_COUNT s s' := by
  cases hpc : s.producer <;> simp only [producer, hpc] at hstep
  case check_mutex => exact Option.some.inj hstep ▸ ProducerMove.check_mutex hpc
  case broadcast => exact Option.some.inj hstep ▸ ProducerMove.broadcast hpc
  case check_cond => exact Option.some.inj hstep ▸ ProducerMove.check_cond hpc
  case loop =>
    split_ifs at hstep with hmore
    · exact Option.some.inj hstep ▸ produce_moves (Or.inl ⟨hpc, hmore⟩)
    · exact Option.some.inj hstep ▸ ProducerMove.leave hpc (Nat.le_of_not_lt hmore)
  case waiting => cases hstep
  case woken => exact Option.some.inj hstep ▸ produce_moves (Or.inr hpc)
  case returned => cases hstep

theorem consume_moves (hpc : s.consumer = .loop ∧ s.rounds < VALUE_COUNT ∨ s.consumer = .woken) :
    ConsumerMove VALUE_COUNT s (consume s) := by
  unfold consume
  by_cases hempty : s.count = 0
  · rw [if_pos hempty]
    exact ConsumerMove.wait hpc hempty
  · rw [if_neg hempty]
    exact ConsumerMove.remove hpc hempty

theorem consumer_moves (hstep : consumer VALUE_COUNT s = some s') :
    ConsumerMove VALUE_COUNT s s' := by
  cases hpc : s.consumer <;> simp only [consumer, hpc] at hstep
  case check_mutex => exact Option.some.inj hstep ▸ ConsumerMove.check_mutex hpc
  case broadcast => exact Option.some.inj hstep ▸ ConsumerMove.broadcast hpc
  case check_cond => exact Option.some.inj hstep ▸ ConsumerMove.check_cond hpc
  case loop =>
    split_ifs at hstep with hmore
    · exact Option.some.inj hstep ▸ consume_moves (Or.inl ⟨hpc, hmore⟩)
    · exact Option.some.inj hstep ▸ ConsumerMove.leave hpc (Nat.le_of_not_lt hmore)
  case waiting => cases hstep
  case woken => exact Option.some.inj hstep ▸ consume_moves (Or.inr hpc)
  case returned => cases hstep

end Moves

section Checking

variable {VALUE_COUNT : Nat} {s s' : State}

@[simp] theorem producer_wake_passed (pc : Producer) : pc.wake.passed = pc.passed := by
  cases pc <;> rfl

@[simp] theorem consumer_wake_passed (pc : Consumer) : pc.wake.passed = pc.passed := by
  cases pc <;> rfl

/-- The checks are over when the loops begin. -/
theorem checked_same (h : Checked VALUE_COUNT s) (halive : s'.crashed = s.crashed)
    (hmutex : s'.mutex1 = s.mutex1) (hcond : s'.cond1 = s.cond1)
    (hproducer : s'.producer.passed = s.producer.passed)
    (hconsumer : s'.consumer.passed = s.consumer.passed)
    (hmain : s'.main.due VALUE_COUNT = s.main.due VALUE_COUNT) (hprinted : s'.printed = s.printed) :
    Checked VALUE_COUNT s' := by
  refine ⟨halive.trans h.alive, ?_, ?_, ?_⟩
  · rw [hmutex, hproducer, hconsumer]
    exact h.mutex
  · rw [hcond, hproducer, hconsumer]
    exact h.cond
  · rw [hprinted, due, hproducer, hconsumer, hmain]
    exact h.printed

/-- What has been printed with one more line. -/
theorem printed_line (h : Checked VALUE_COUNT s) {new : Check × Bool}
    (hdue : ∀ a, (due VALUE_COUNT s').count a = (due VALUE_COUNT s).count a + [new].count a) :
    (s.printed ++ [new]).Perm (due VALUE_COUNT s') := by
  rw [List.perm_iff_count]
  intro a
  rw [List.count_append, hdue, List.perm_iff_count.mp h.printed a]

/-- There is one mutex, so it is the one the pointer points to. -/
theorem checkMutex_eq (h : Checked VALUE_COUNT s) (check : Check) :
    checkMutex s check .mutex
      = { s with mutex1 := some .mutex, printed := s.printed ++ [(check, true)] } := by
  unfold checkMutex
  rcases h.mutex with ⟨hnone, _⟩ | hsome
  · rw [hnone]
  · rw [hsome]
    cases s
    simp only at hsome
    simp

/-- The pointer is not `NULL` any more, and if the other thread has set the other
    one, it is to a different condition variable. -/
theorem checkCond_eq {given : Address} (hmutex : s.mutex1 = some .mutex)
    (hother : ∀ cond1, s.cond1 = some cond1 → cond1 ≠ given) (check : Check) :
    checkCond s check given
      = { s with
          cond1 := some (s.cond1.getD given)
          printed := s.printed ++ [(check, true)] } := by
  unfold checkCond
  rw [hmutex]
  cases hcond : s.cond1 with
  | none => rfl
  | some cond1 =>
      simp only [Option.getD_some, hother cond1 hcond, ne_eq, not_false_eq_true, decide_true]

/-- The checks change nothing but the pointers and what is printed. -/
theorem checkMutex_frame (s : State) (check : Check) (given : Address) :
    ∃ mutex1 printed, checkMutex s check given
      = { s with mutex1 := mutex1, printed := printed } := by
  unfold checkMutex
  cases s.mutex1 with
  | none => exact ⟨_, _, rfl⟩
  | some m => exact ⟨some m, _, rfl⟩

theorem checkCond_frame (s : State) (check : Check) (given : Address) :
    ∃ cond1 printed crashed, checkCond s check given
      = { s with cond1 := cond1, printed := printed, crashed := crashed } := by
  unfold checkCond
  cases s.mutex1 with
  | none => exact ⟨_, _, _, rfl⟩
  | some m =>
      cases s.cond1 with
      | none => exact ⟨_, _, _, rfl⟩
      | some c => exact ⟨some c, _, _, rfl⟩

theorem checked_mutex_producer (h : Checked VALUE_COUNT s) (hpc : s.producer = .check_mutex) :
    Checked VALUE_COUNT { checkMutex s .mutex_producer .mutex with producer := .broadcast } := by
  have hcond := h.cond
  rw [hpc] at hcond
  rw [checkMutex_eq h]
  refine ⟨h.alive, Or.inr rfl, hcond, printed_line h fun a => ?_⟩
  simp only [due, hpc, Producer.passed, line, List.count_append]
  simp
  omega

theorem checked_mutex_consumer (h : Checked VALUE_COUNT s) (hpc : s.consumer = .check_mutex) :
    Checked VALUE_COUNT { checkMutex s .mutex_consumer .mutex with consumer := .broadcast } := by
  have hcond := h.cond
  rw [hpc] at hcond
  rw [checkMutex_eq h]
  refine ⟨h.alive, Or.inr rfl, hcond, printed_line h fun a => ?_⟩
  simp only [due, hpc, Consumer.passed, line, List.count_append]
  simp
  omega

theorem checked_cond_producer (h : Checked VALUE_COUNT s) (hpc : s.producer = .check_cond) :
    Checked VALUE_COUNT
      { checkCond s .cond_producer .producer_cond with producer := .loop } := by
  have hcond := h.cond
  rw [hpc] at hcond
  have hmutex : s.mutex1 = some .mutex := by
    rcases h.mutex with ⟨_, hbefore, _⟩ | hsome
    · rw [hpc] at hbefore
      cases hbefore
    · exact hsome
  -- The producer has not set the pointer, so if it is set, the consumer has.
  have hother : s.cond1 = none ∨ s.cond1 = some .consumer_cond ∧ s.consumer.passed.2 = true := by
    rcases hcond with ⟨hnone, _⟩ | ⟨_, hbefore⟩ | hset
    · exact Or.inl hnone
    · cases hbefore
    · exact Or.inr hset
  rw [checkCond_eq hmutex fun cond1 hset => by
    rcases hother with hnone | ⟨hsome, _⟩
    · rw [hnone] at hset
      cases hset
    · rw [hsome, Option.some.injEq] at hset
      rw [← hset]
      decide]
  refine ⟨h.alive, Or.inr hmutex, Or.inr ?_, printed_line h fun a => ?_⟩
  · rcases hother with hnone | ⟨hsome, hpassed⟩
    · exact Or.inl ⟨by simp [hnone], rfl⟩
    · exact Or.inr ⟨by simp [hsome], hpassed⟩
  · simp only [due, hpc, Producer.passed, line, List.count_append]
    simp
    omega

theorem checked_cond_consumer (h : Checked VALUE_COUNT s) (hpc : s.consumer = .check_cond) :
    Checked VALUE_COUNT
      { checkCond s .cond_consumer .consumer_cond with consumer := .loop } := by
  have hcond := h.cond
  rw [hpc] at hcond
  have hmutex : s.mutex1 = some .mutex := by
    rcases h.mutex with ⟨_, _, hbefore⟩ | hsome
    · rw [hpc] at hbefore
      cases hbefore
    · exact hsome
  have hother : s.cond1 = none ∨ s.cond1 = some .producer_cond ∧ s.producer.passed.2 = true := by
    rcases hcond with ⟨hnone, _⟩ | hset | ⟨_, hbefore⟩
    · exact Or.inl hnone
    · exact Or.inr hset
    · cases hbefore
  rw [checkCond_eq hmutex fun cond1 hset => by
    rcases hother with hnone | ⟨hsome, _⟩
    · rw [hnone] at hset
      cases hset
    · rw [hsome, Option.some.injEq] at hset
      rw [← hset]
      decide]
  refine ⟨h.alive, Or.inr hmutex, Or.inr ?_, printed_line h fun a => ?_⟩
  · rcases hother with hnone | ⟨hsome, hpassed⟩
    · exact Or.inr ⟨by simp [hnone], rfl⟩
    · exact Or.inl ⟨by simp [hsome], hpassed⟩
  · simp only [due, hpc, Consumer.passed, line, List.count_append]
    simp
    omega

end Checking

section Placing

variable {BUFFER_SIZE VALUE_COUNT : Nat} {s s' : State}

theorem producer_wake_cases (pc : Producer) :
    pc = .waiting ∧ pc.wake = .woken ∨ pc ≠ .waiting ∧ pc.wake = pc := by
  cases pc <;> simp [Producer.wake]

theorem consumer_wake_cases (pc : Consumer) :
    pc = .waiting ∧ pc.wake = .woken ∨ pc ≠ .waiting ∧ pc.wake = pc := by
  cases pc <;> simp [Consumer.wake]

/-- A thread moves to a place of which nothing is required. -/
theorem places_producer (h : Places BUFFER_SIZE VALUE_COUNT s) (pc : Producer)
    (hwaiting : pc = .waiting → s.count = BUFFER_SIZE ∧ s.i < VALUE_COUNT)
    (hwoken : pc = .woken → s.i < VALUE_COUNT) (hreturned : pc = .returned → s.i = VALUE_COUNT)
    (hcount : s'.count = s.count) (hi : s'.i = s.i) (hrounds : s'.rounds = s.rounds)
    (hconsumer : s'.consumer = s.consumer) (hproducer : s'.producer = pc) :
    Places BUFFER_SIZE VALUE_COUNT s' := by
  constructor <;> simp only [hcount, hi, hrounds, hconsumer, hproducer]
  · exact h.low
  · exact h.high
  · exact h.made
  · exact h.taken
  · exact hwaiting
  · exact h.empty
  · exact hwoken
  · exact h.consumer_woken
  · exact hreturned
  · exact h.consumer_done

theorem places_consumer (h : Places BUFFER_SIZE VALUE_COUNT s) (pc : Consumer)
    (hwaiting : pc = .waiting → s.count = 0 ∧ s.rounds < VALUE_COUNT)
    (hwoken : pc = .woken → s.rounds < VALUE_COUNT)
    (hreturned : pc = .returned → s.rounds = VALUE_COUNT)
    (hcount : s'.count = s.count) (hi : s'.i = s.i) (hrounds : s'.rounds = s.rounds)
    (hproducer : s'.producer = s.producer) (hconsumer : s'.consumer = pc) :
    Places BUFFER_SIZE VALUE_COUNT s' := by
  constructor <;> simp only [hcount, hi, hrounds, hconsumer, hproducer]
  · exact h.low
  · exact h.high
  · exact h.made
  · exact h.taken
  · exact h.full
  · exact hwaiting
  · exact h.producer_woken
  · exact hwoken
  · exact h.producer_done
  · exact hreturned

/-- Where the threads stand after a value has been stored. -/
theorem places_store (h : Places BUFFER_SIZE VALUE_COUNT s) (hless : s.i < VALUE_COUNT)
    (hroom : s.count ≠ BUFFER_SIZE) (hcount : s'.count = s.count + 1) (hi : s'.i = s.i + 1)
    (hrounds : s'.rounds = s.rounds) (hproducer : s'.producer = .loop)
    (hconsumer : s'.consumer = s.consumer.wake) : Places BUFFER_SIZE VALUE_COUNT s' := by
  have hlow := h.low
  have hhigh := h.high
  rcases consumer_wake_cases s.consumer with ⟨hasleep, hwoken⟩ | ⟨hawake, hsame⟩
  · -- The consumer has a value to wait for no longer.
    constructor <;> simp only [hcount, hi, hrounds, hproducer, hconsumer, hwoken, reduceCtorEq,
      false_implies]
    · omega
    · omega
    · omega
    · exact h.taken
    · exact fun _ => (h.empty hasleep).2
  · constructor <;> simp only [hcount, hi, hrounds, hproducer, hconsumer, hsame, reduceCtorEq,
      false_implies]
    · omega
    · omega
    · omega
    · exact h.taken
    · exact fun hwaiting => absurd hwaiting hawake
    · exact h.consumer_woken
    · exact h.consumer_done

/-- Where they stand after a value has been removed. -/
theorem places_remove (h : Places BUFFER_SIZE VALUE_COUNT s) (hless : s.rounds < VALUE_COUNT)
    (hsome : s.count ≠ 0) (hcount : s'.count = s.count - 1) (hi : s'.i = s.i)
    (hrounds : s'.rounds = s.rounds + 1) (hproducer : s'.producer = s.producer.wake)
    (hconsumer : s'.consumer = .loop) : Places BUFFER_SIZE VALUE_COUNT s' := by
  have hlow := h.low
  have hhigh := h.high
  rcases producer_wake_cases s.producer with ⟨hasleep, hwoken⟩ | ⟨hawake, hsame⟩
  · constructor <;> simp only [hcount, hi, hrounds, hproducer, hconsumer, hwoken, reduceCtorEq,
      false_implies]
    · omega
    · omega
    · exact h.made
    · omega
    · exact fun _ => (h.full hasleep).2
  · constructor <;> simp only [hcount, hi, hrounds, hproducer, hconsumer, hsame, reduceCtorEq,
      false_implies]
    · omega
    · omega
    · exact h.made
    · omega
    · exact fun hwaiting => absurd hwaiting hawake
    · exact h.producer_woken
    · exact h.producer_done

end Placing

section Piling

variable {BUFFER_SIZE VALUE_COUNT : Nat} {s s' : State}

theorem total_perm {l m : List Int} (h : l.Perm m) : total l = total m := by
  refine h.foldl_eq' (fun x _ y _ sum => ?_) 0
  omega

theorem coming_cons {i : Nat} (h : i < VALUE_COUNT) :
    coming i VALUE_COUNT = (i : Int) :: coming (i + 1) VALUE_COUNT := by
  unfold coming
  rw [show VALUE_COUNT - i = (VALUE_COUNT - (i + 1)) + 1 by omega, List.range'_succ, List.map_cons]

theorem lying_length (s : State) : (lying s).length = s.count.toNat := by
  rw [lying, List.length_reverse, List.length_map, List.length_range]

/-- A value stored at `count` is on top. -/
theorem lying_store (hlow : 0 ≤ s.count) {value : Int}
    (hbuffer : s'.buffer = Function.update s.buffer s.count value)
    (hcount : s'.count = s.count + 1) : lying s' = value :: lying s := by
  unfold lying
  rw [hcount, show (s.count + 1).toNat = s.count.toNat + 1 by omega, List.range_succ,
    List.map_append, List.reverse_append, hbuffer]
  have htop : ((s.count.toNat : Nat) : Int) = s.count := by omega
  -- The values below are where they were.
  have hbelow : (List.range s.count.toNat).map (fun n : Nat =>
      Function.update s.buffer s.count value (n : Int))
      = (List.range s.count.toNat).map fun n : Nat => s.buffer n := by
    refine List.map_congr_left fun n hn => Function.update_of_ne ?_ _ _
    have hlt := List.mem_range.mp hn
    omega
  simp [hbelow, htop]

/-- The value at `count - 1` is the one on top. -/
theorem lying_remove (hlow : 0 ≤ s.count) (hsome : s.count ≠ 0) (hbuffer : s'.buffer = s.buffer)
    (hcount : s'.count = s.count - 1) : lying s = s.buffer (s.count - 1) :: lying s' := by
  unfold lying
  have htop : (((s.count - 1).toNat : Nat) : Int) = s.count - 1 := by omega
  rw [show s.count.toNat = (s.count - 1).toNat + 1 by omega, List.range_succ, List.map_append,
    List.reverse_append, hcount, hbuffer, List.map_cons, htop]
  rfl

/-- What is processed does not change with the places of the threads. -/
theorem piled_same (h : Piled BUFFER_SIZE VALUE_COUNT s) (hword : s'.word = s.word)
    (hi : s'.i = s.i) (hbuffer : s'.buffer = s.buffer) (hcount : s'.count = s.count)
    (hprocessed : s'.processed = s.processed) (hrounds : s'.rounds = s.rounds)
    (htotal : s'.processed_value_count = s.processed_value_count)
    (hsum : s'.processed_value_sum = s.processed_value_sum) (hused : s'.used = s.used) :
    Piled BUFFER_SIZE VALUE_COUNT s' := by
  have hlying : lying s' = lying s := by rw [lying, hcount, hbuffer, lying]
  constructor
  · rw [hword, hi, hlying, hprocessed]
    exact h.pile
  · rw [hrounds, hprocessed]
    exact h.rounds
  · rw [htotal, hprocessed]
    exact h.count
  · rw [hsum, hprocessed]
    exact h.sum
  · rw [hused]
    exact h.used

theorem run_append_one {cap : Nat} {p q r : Pile Int} {word : List PileOp} {op : PileOp}
    (hrun : run (pileStep cap) p word = some q) (hstep : pileStep cap q op = some r) :
    run (pileStep cap) p (word ++ [op]) = some r := by
  refine run_append_eq_some.mpr ⟨q, hrun, ?_⟩
  rw [run, hstep, Option.bind_some, run]

/-- Storing a value is a step of the pile. -/
theorem piled_store (h : Piled BUFFER_SIZE VALUE_COUNT s) (hlow : 0 ≤ s.count)
    (hhigh : s.count ≤ BUFFER_SIZE) (hroom : s.count ≠ BUFFER_SIZE) (hless : s.i < VALUE_COUNT)
    (hbuffer : s'.buffer = Function.update s.buffer s.count s.i)
    (hcount : s'.count = s.count + 1) (hi : s'.i = s.i + 1) (hrounds : s'.rounds = s.rounds)
    (hused : s'.used = s.used ++ [s.count]) (hword : s'.word = s.word ++ [.push])
    (hprocessed : s'.processed = s.processed)
    (htotal : s'.processed_value_count = s.processed_value_count)
    (hsum : s'.processed_value_sum = s.processed_value_sum) :
    Piled BUFFER_SIZE VALUE_COUNT s' := by
  refine ⟨?_, ?_, ?_, ?_, fun x hx => ?_⟩
  · rw [hword, hi, hprocessed, lying_store hlow hbuffer hcount]
    refine run_append_one h.pile ?_
    have hlt : (lying s).length < BUFFER_SIZE := by
      rw [lying_length]
      omega
    rw [coming_cons hless]
    simp only [pileStep]
    rw [if_pos hlt]
  · rw [hrounds, hprocessed]
    exact h.rounds
  · rw [htotal, hprocessed]
    exact h.count
  · rw [hsum, hprocessed]
    exact h.sum
  · rw [hused] at hx
    rcases List.mem_append.mp hx with hx | hx
    · exact h.used x hx
    · rw [List.mem_singleton.mp hx]
      omega

/-- So is removing one. -/
theorem piled_remove (h : Piled BUFFER_SIZE VALUE_COUNT s) (hlow : 0 ≤ s.count)
    (hhigh : s.count ≤ BUFFER_SIZE) (hsome : s.count ≠ 0) (hbuffer : s'.buffer = s.buffer)
    (hcount : s'.count = s.count - 1) (hi : s'.i = s.i) (hrounds : s'.rounds = s.rounds + 1)
    (hused : s'.used = s.used ++ [s.count - 1]) (hword : s'.word = s.word ++ [.pop])
    (hprocessed : s'.processed = s.processed ++ [s.buffer (s.count - 1)])
    (htotal : s'.processed_value_count = s.processed_value_count + 1)
    (hsum : s'.processed_value_sum = s.processed_value_sum + s.buffer (s.count - 1)) :
    Piled BUFFER_SIZE VALUE_COUNT s' := by
  refine ⟨?_, ?_, ?_, ?_, fun x hx => ?_⟩
  · rw [hword, hi, hprocessed]
    refine run_append_one h.pile ?_
    rw [lying_remove hlow hsome hbuffer hcount]
    rfl
  · rw [hrounds, hprocessed, List.length_append, h.rounds]
    rfl
  · rw [htotal, hprocessed, List.length_append, h.count]
    rfl
  · rw [hsum, hprocessed, total, List.foldl_append, h.sum, total]
    rfl
  · rw [hused] at hx
    rcases List.mem_append.mp hx with hx | hx
    · exact h.used x hx
    · rw [List.mem_singleton.mp hx]
      omega

/-- What has been processed, what is on the stack and what is to come are all
    the values. -/
theorem all_values (h : Piled BUFFER_SIZE VALUE_COUNT s) :
    (s.processed ++ (lying s ++ coming s.i VALUE_COUNT)).Perm (coming 0 VALUE_COUNT) := by
  have hperm := pile_perm h.pile
  exact hperm

theorem coming_length (i : Nat) : (coming i VALUE_COUNT).length = VALUE_COUNT - i := by
  rw [coming, List.length_map, List.length_range']

theorem number_of_values (h : Piled BUFFER_SIZE VALUE_COUNT s) :
    s.rounds + (s.count.toNat + (VALUE_COUNT - s.i)) = VALUE_COUNT := by
  have hlength := (all_values h).length_eq
  rw [List.length_append, List.length_append, lying_length, coming_length, coming_length,
    ← h.rounds] at hlength
  exact hlength

end Piling

section Steps

variable {BUFFER_SIZE VALUE_COUNT : Nat} {s s' : State}

/-- As long as a thread has not returned, `main` waits for it. -/
theorem joined_threads (h : Joined s) (hmain : s'.main = s.main)
    (hproducer : s.producer = .returned → s'.producer = .returned)
    (hconsumer : s.consumer = .returned → s'.consumer = .returned) : Joined s' := by
  constructor
  · intro hm
    rw [hmain] at hm
    exact hproducer (h.producer hm)
  · intro hm hm'
    rw [hmain] at hm hm'
    exact hconsumer (h.consumer hm hm')

theorem sound_producer (h : Sound BUFFER_SIZE VALUE_COUNT s)
    (hmove : ProducerMove BUFFER_SIZE VALUE_COUNT s s') : Sound BUFFER_SIZE VALUE_COUNT s' := by
  have hless : s.producer = .loop ∧ s.i < VALUE_COUNT ∨ s.producer = .woken →
      s.i < VALUE_COUNT := fun hpc => hpc.elim And.right h.places.producer_woken
  have hbusy : s.producer = .loop ∧ s.i < VALUE_COUNT ∨ s.producer = .woken →
      s.producer ≠ .returned ∧ s.producer.passed = (true, true) := by
    intro hpc
    rcases hpc with ⟨hpc, _⟩ | hpc
    · rw [hpc]
      exact ⟨by decide, rfl⟩
    · rw [hpc]
      exact ⟨by decide, rfl⟩
  have hgone : ∀ {pc}, s.producer = pc → pc ≠ .returned → s.producer = .returned →
      s'.producer = .returned := fun hpc hne hret => absurd (hpc.symm.trans hret) hne
  cases hmove with
  | check_mutex hpc =>
      have hchecked := checked_mutex_producer h.checked hpc
      rcases checkMutex_frame s .mutex_producer .mutex with ⟨mutex1, printed, hsame⟩
      rw [hsame] at hchecked ⊢
      exact ⟨hchecked, places_producer h.places .broadcast nofun nofun nofun rfl rfl rfl rfl rfl,
        piled_same h.piled rfl rfl rfl rfl rfl rfl rfl rfl rfl,
        joined_threads h.joined rfl (hgone hpc (by decide)) id⟩
  | broadcast hpc =>
      exact ⟨checked_same h.checked rfl rfl rfl (by rw [hpc]; rfl) rfl rfl rfl,
        places_producer h.places .check_cond nofun nofun nofun rfl rfl rfl rfl rfl,
        piled_same h.piled rfl rfl rfl rfl rfl rfl rfl rfl rfl,
        joined_threads h.joined rfl (hgone hpc (by decide)) id⟩
  | check_cond hpc =>
      have hchecked := checked_cond_producer h.checked hpc
      rcases checkCond_frame s .cond_producer .producer_cond with ⟨cond1, printed, crashed, hsame⟩
      rw [hsame] at hchecked ⊢
      exact ⟨hchecked, places_producer h.places .loop nofun nofun nofun rfl rfl rfl rfl rfl,
        piled_same h.piled rfl rfl rfl rfl rfl rfl rfl rfl rfl,
        joined_threads h.joined rfl (hgone hpc (by decide)) id⟩
  | wait hpc hfull =>
      exact ⟨checked_same h.checked rfl rfl rfl (hbusy hpc).2.symm rfl rfl rfl,
        places_producer h.places .waiting (fun _ => ⟨hfull, hless hpc⟩) nofun nofun
          rfl rfl rfl rfl rfl,
        piled_same h.piled rfl rfl rfl rfl rfl rfl rfl rfl rfl,
        joined_threads h.joined rfl (fun hret => absurd hret (hbusy hpc).1) id⟩
  | store hpc hroom =>
      refine ⟨checked_same h.checked rfl rfl rfl (hbusy hpc).2.symm
          (consumer_wake_passed s.consumer) rfl rfl,
        places_store h.places (hless hpc) hroom rfl rfl rfl rfl rfl,
        piled_store h.piled h.places.low h.places.high hroom (hless hpc) rfl rfl rfl rfl rfl rfl
          rfl rfl rfl,
        joined_threads h.joined rfl (fun hret => absurd hret (hbusy hpc).1) fun hret => ?_⟩
      change s.consumer.wake = .returned
      rw [hret]
      rfl
  | leave hpc hdone =>
      have hmade := h.places.made
      exact ⟨checked_same h.checked rfl rfl rfl (by rw [hpc]; rfl) rfl rfl rfl,
        places_producer h.places .returned nofun nofun (fun _ => by omega) rfl rfl rfl rfl rfl,
        piled_same h.piled rfl rfl rfl rfl rfl rfl rfl rfl rfl,
        joined_threads h.joined rfl (fun _ => rfl) id⟩

theorem sound_consumer (h : Sound BUFFER_SIZE VALUE_COUNT s)
    (hmove : ConsumerMove VALUE_COUNT s s') : Sound BUFFER_SIZE VALUE_COUNT s' := by
  have hless : s.consumer = .loop ∧ s.rounds < VALUE_COUNT ∨ s.consumer = .woken →
      s.rounds < VALUE_COUNT := fun hpc => hpc.elim And.right h.places.consumer_woken
  have hbusy : s.consumer = .loop ∧ s.rounds < VALUE_COUNT ∨ s.consumer = .woken →
      s.consumer ≠ .returned ∧ s.consumer.passed = (true, true) := by
    intro hpc
    rcases hpc with ⟨hpc, _⟩ | hpc
    · rw [hpc]
      exact ⟨by decide, rfl⟩
    · rw [hpc]
      exact ⟨by decide, rfl⟩
  have hgone : ∀ {pc}, s.consumer = pc → pc ≠ .returned → s.consumer = .returned →
      s'.consumer = .returned := fun hpc hne hret => absurd (hpc.symm.trans hret) hne
  cases hmove with
  | check_mutex hpc =>
      have hchecked := checked_mutex_consumer h.checked hpc
      rcases checkMutex_frame s .mutex_consumer .mutex with ⟨mutex1, printed, hsame⟩
      rw [hsame] at hchecked ⊢
      exact ⟨hchecked, places_consumer h.places .broadcast nofun nofun nofun rfl rfl rfl rfl rfl,
        piled_same h.piled rfl rfl rfl rfl rfl rfl rfl rfl rfl,
        joined_threads h.joined rfl id (hgone hpc (by decide))⟩
  | broadcast hpc =>
      exact ⟨checked_same h.checked rfl rfl rfl rfl (by rw [hpc]; rfl) rfl rfl,
        places_consumer h.places .check_cond nofun nofun nofun rfl rfl rfl rfl rfl,
        piled_same h.piled rfl rfl rfl rfl rfl rfl rfl rfl rfl,
        joined_threads h.joined rfl id (hgone hpc (by decide))⟩
  | check_cond hpc =>
      have hchecked := checked_cond_consumer h.checked hpc
      rcases checkCond_frame s .cond_consumer .consumer_cond with ⟨cond1, printed, crashed, hsame⟩
      rw [hsame] at hchecked ⊢
      exact ⟨hchecked, places_consumer h.places .loop nofun nofun nofun rfl rfl rfl rfl rfl,
        piled_same h.piled rfl rfl rfl rfl rfl rfl rfl rfl rfl,
        joined_threads h.joined rfl id (hgone hpc (by decide))⟩
  | wait hpc hempty =>
      exact ⟨checked_same h.checked rfl rfl rfl rfl (hbusy hpc).2.symm rfl rfl,
        places_consumer h.places .waiting (fun _ => ⟨hempty, hless hpc⟩) nofun nofun
          rfl rfl rfl rfl rfl,
        piled_same h.piled rfl rfl rfl rfl rfl rfl rfl rfl rfl,
        joined_threads h.joined rfl id fun hret => absurd hret (hbusy hpc).1⟩
  | remove hpc hsome =>
      refine ⟨checked_same h.checked rfl rfl rfl (producer_wake_passed s.producer)
          (hbusy hpc).2.symm rfl rfl,
        places_remove h.places (hless hpc) hsome rfl rfl rfl rfl rfl,
        piled_remove h.piled h.places.low h.places.high hsome rfl rfl rfl rfl rfl rfl rfl rfl rfl,
        joined_threads h.joined rfl (fun hret => ?_) fun hret => absurd hret (hbusy hpc).1⟩
      change s.producer.wake = .returned
      rw [hret]
      rfl
  | leave hpc hdone =>
      have htaken := h.places.taken
      exact ⟨checked_same h.checked rfl rfl rfl rfl (by rw [hpc]; rfl) rfl rfl,
        places_consumer h.places .returned nofun nofun (fun _ => by omega) rfl rfl rfl rfl rfl,
        piled_same h.piled rfl rfl rfl rfl rfl rfl rfl rfl rfl,
        joined_threads h.joined rfl id fun _ => rfl⟩

/-- When both threads have returned, all values have been processed. -/
theorem all_processed (h : Sound BUFFER_SIZE VALUE_COUNT s) (hproducer : s.producer = .returned)
    (hconsumer : s.consumer = .returned) :
    s.processed_value_count = VALUE_COUNT ∧
      s.processed_value_sum = total (coming 0 VALUE_COUNT) := by
  have hi := h.places.producer_done hproducer
  have hrounds := h.places.consumer_done hconsumer
  have hnumber := number_of_values h.piled
  have hlow := h.places.low
  constructor
  · rw [h.piled.count, ← h.piled.rounds, hrounds]
  · -- Nothing is left on the stack or to come.
    have hlying : lying s = [] := by
      rw [← List.length_eq_zero_iff, lying_length]
      omega
    have hcoming : coming s.i VALUE_COUNT = [] := by
      rw [← List.length_eq_zero_iff, coming_length]
      omega
    have hperm := all_values h.piled
    rw [hlying, hcoming, List.append_nil, List.append_nil] at hperm
    rw [h.piled.sum]
    exact total_perm hperm

theorem sound_main (h : Sound BUFFER_SIZE VALUE_COUNT s) (hstep : main s = some s') :
    Sound BUFFER_SIZE VALUE_COUNT s' := by
  have hproducer := h.joined.producer
  have hconsumer := h.joined.consumer
  cases hmain : s.main with
  | joining_producer =>
      simp only [main, hmain] at hstep
      split_ifs at hstep with hret
      rw [← Option.some.inj hstep]
      refine ⟨checked_same h.checked rfl rfl rfl rfl rfl (by rw [hmain]; rfl) rfl,
        places_producer h.places s.producer h.places.full h.places.producer_woken
          h.places.producer_done rfl rfl rfl rfl rfl,
        piled_same h.piled rfl rfl rfl rfl rfl rfl rfl rfl rfl, fun _ => hret, fun _ hne => ?_⟩
      exact absurd rfl hne
  | joining_consumer =>
      simp only [main, hmain] at hstep
      split_ifs at hstep with hret
      rw [← Option.some.inj hstep]
      exact ⟨checked_same h.checked rfl rfl rfl rfl rfl (by rw [hmain]; rfl) rfl,
        places_producer h.places s.producer h.places.full h.places.producer_woken
          h.places.producer_done rfl rfl rfl rfl rfl,
        piled_same h.piled rfl rfl rfl rfl rfl rfl rfl rfl rfl,
        fun _ => hproducer (by rw [hmain]; decide), fun _ _ => hret⟩
  | check_wait =>
      have hp := hproducer (by rw [hmain]; decide)
      have hc := hconsumer (by rw [hmain]; decide) (by rw [hmain]; decide)
      have htotal := (all_processed h hp hc).1
      simp only [main, hmain, Option.some.injEq] at hstep
      rw [← hstep]
      refine ⟨⟨h.checked.alive, h.checked.mutex, h.checked.cond, ?_⟩,
        places_producer h.places s.producer h.places.full h.places.producer_woken
          h.places.producer_done rfl rfl rfl rfl rfl,
        piled_same h.piled rfl rfl rfl rfl rfl rfl rfl rfl rfl, fun _ => hp, fun _ _ => hc⟩
      have htwenty : decide (s.processed_value_count = 20) = decide (VALUE_COUNT = 20) := by
        rw [htotal]
        exact decide_eq_decide.mpr (by omega)
      refine printed_line h.checked fun a => ?_
      rw [htwenty]
      simp [due, hmain, Main.due]
      omega
  | check_results =>
      have hp := hproducer (by rw [hmain]; decide)
      have hc := hconsumer (by rw [hmain]; decide) (by rw [hmain]; decide)
      have hsum := (all_processed h hp hc).2
      simp only [main, hmain, Option.some.injEq] at hstep
      rw [← hstep]
      refine ⟨⟨h.checked.alive, h.checked.mutex, h.checked.cond, ?_⟩,
        places_producer h.places s.producer h.places.full h.places.producer_woken
          h.places.producer_done rfl rfl rfl rfl rfl,
        piled_same h.piled rfl rfl rfl rfl rfl rfl rfl rfl rfl, fun _ => hp, fun _ _ => hc⟩
      refine printed_line h.checked fun a => ?_
      rw [hsum, show ((20 / 2) * (0 + 19) : Int) = 190 from rfl]
      simp [due, hmain, Main.due, List.count_cons]
      omega
  | returned => simp [main, hmain] at hstep

theorem sound_step (h : Sound BUFFER_SIZE VALUE_COUNT s) {e : Event}
    (hstep : step BUFFER_SIZE VALUE_COUNT s e = some s') : Sound BUFFER_SIZE VALUE_COUNT s' := by
  cases e with
  | producer =>
      simp only [step, h.checked.alive, Bool.false_eq_true, if_false] at hstep
      exact sound_producer h (producer_moves hstep)
  | consumer =>
      simp only [step, h.checked.alive, Bool.false_eq_true, if_false] at hstep
      exact sound_consumer h (consumer_moves hstep)
  | main =>
      simp only [step, h.checked.alive, Bool.false_eq_true, if_false] at hstep
      exact sound_main h hstep
  | wake_producer =>
      simp only [step] at hstep
      split_ifs at hstep with hpc
      rw [← Option.some.inj hstep]
      exact ⟨checked_same h.checked rfl rfl rfl (by rw [hpc.2]; rfl) rfl rfl rfl,
        places_producer h.places .woken nofun (fun _ => (h.places.full hpc.2).2) nofun
          rfl rfl rfl rfl rfl,
        piled_same h.piled rfl rfl rfl rfl rfl rfl rfl rfl rfl,
        joined_threads h.joined rfl (fun hret => absurd (hpc.2.symm.trans hret) (by decide)) id⟩
  | wake_consumer =>
      simp only [step] at hstep
      split_ifs at hstep with hpc
      rw [← Option.some.inj hstep]
      exact ⟨checked_same h.checked rfl rfl rfl rfl (by rw [hpc.2]; rfl) rfl rfl,
        places_consumer h.places .woken nofun (fun _ => (h.places.empty hpc.2).2) nofun
          rfl rfl rfl rfl rfl,
        piled_same h.piled rfl rfl rfl rfl rfl rfl rfl rfl rfl,
        joined_threads h.joined rfl id fun hret => absurd (hpc.2.symm.trans hret) (by decide)⟩

theorem sound_start : Sound BUFFER_SIZE VALUE_COUNT start := by
  refine ⟨⟨rfl, Or.inl ⟨rfl, rfl, rfl⟩, Or.inl ⟨rfl, rfl, rfl⟩, List.Perm.refl _⟩,
    ⟨Int.le_refl _, ?_, Nat.zero_le _, Nat.zero_le _, nofun, nofun, nofun, nofun, nofun, nofun⟩,
    ⟨rfl, rfl, rfl, rfl, fun x hx => absurd hx List.not_mem_nil⟩,
    fun hne => absurd rfl hne, fun hne => absurd rfl hne⟩
  exact Int.natCast_nonneg _

theorem sound_of_reaches (hreach : Reachable (step BUFFER_SIZE VALUE_COUNT) start s) :
    Sound BUFFER_SIZE VALUE_COUNT s :=
  hreach.invariant sound_start fun _ _ _ hv _ hstep => sound_step hv hstep

end Steps

/-- What a place of the producer has before it in its round. -/
def Producer.rank : Producer → Nat
  | .check_mutex => 4
  | .broadcast => 3
  | .check_cond => 2
  | .loop => 1
  | .waiting => 0
  | .woken => 1
  | .returned => 0

def Consumer.rank : Consumer → Nat
  | .check_mutex => 4
  | .broadcast => 3
  | .check_cond => 2
  | .loop => 1
  | .waiting => 0
  | .woken => 1
  | .returned => 0

def Main.rank : Main → Nat
  | .joining_producer => 4
  | .joining_consumer => 3
  | .check_wait => 2
  | .check_results => 1
  | .returned => 0

/-- What is left to do. -/
def rank (VALUE_COUNT : Nat) (s : State) : Nat :=
  2 * (VALUE_COUNT - s.i) + s.producer.rank + (2 * (VALUE_COUNT - s.rounds) + s.consumer.rank) +
    s.main.rank

section Progress

variable {BUFFER_SIZE VALUE_COUNT : Nat} {s s' : State}

theorem producer_wake_rank (pc : Producer) : pc.wake.rank ≤ pc.rank + 1 := by
  cases pc <;> simp [Producer.wake, Producer.rank]

theorem consumer_wake_rank (pc : Consumer) : pc.wake.rank ≤ pc.rank + 1 := by
  cases pc <;> simp [Consumer.wake, Consumer.rank]

theorem rank_producer (h : Sound BUFFER_SIZE VALUE_COUNT s)
    (hmove : ProducerMove BUFFER_SIZE VALUE_COUNT s s') :
    rank VALUE_COUNT s' < rank VALUE_COUNT s := by
  have hone : s.producer = .loop ∧ s.i < VALUE_COUNT ∨ s.producer = .woken →
      s.producer.rank = 1 ∧ s.i < VALUE_COUNT := by
    intro hpc
    rcases hpc with ⟨hpc, hless⟩ | hpc
    · exact ⟨by rw [hpc]; rfl, hless⟩
    · exact ⟨by rw [hpc]; rfl, h.places.producer_woken hpc⟩
  cases hmove with
  | check_mutex hpc =>
      rcases checkMutex_frame s .mutex_producer .mutex with ⟨mutex1, printed, hsame⟩
      simp only [rank, hsame, hpc, Producer.rank]
      omega
  | broadcast hpc =>
      simp only [rank, hpc, Producer.rank]
      omega
  | check_cond hpc =>
      rcases checkCond_frame s .cond_producer .producer_cond with ⟨cond1, printed, crashed, hsame⟩
      simp only [rank, hsame, hpc, Producer.rank]
      omega
  | wait hpc hfull =>
      have hrank := (hone hpc).1
      have hthen : Producer.waiting.rank = 0 := rfl
      simp only [rank, hrank, hthen]
      omega
  | store hpc hroom =>
      -- The value stored counts for more than waking the consumer.
      have hrank := hone hpc
      have hwake := consumer_wake_rank s.consumer
      have hthen : Producer.loop.rank = 1 := rfl
      simp only [rank, hrank.1, hthen]
      omega
  | leave hpc hdone =>
      simp only [rank, hpc, Producer.rank]
      omega

theorem rank_consumer (h : Sound BUFFER_SIZE VALUE_COUNT s)
    (hmove : ConsumerMove VALUE_COUNT s s') : rank VALUE_COUNT s' < rank VALUE_COUNT s := by
  have hone : s.consumer = .loop ∧ s.rounds < VALUE_COUNT ∨ s.consumer = .woken →
      s.consumer.rank = 1 ∧ s.rounds < VALUE_COUNT := by
    intro hpc
    rcases hpc with ⟨hpc, hless⟩ | hpc
    · exact ⟨by rw [hpc]; rfl, hless⟩
    · exact ⟨by rw [hpc]; rfl, h.places.consumer_woken hpc⟩
  cases hmove with
  | check_mutex hpc =>
      rcases checkMutex_frame s .mutex_consumer .mutex with ⟨mutex1, printed, hsame⟩
      simp only [rank, hsame, hpc, Consumer.rank]
      omega
  | broadcast hpc =>
      simp only [rank, hpc, Consumer.rank]
      omega
  | check_cond hpc =>
      rcases checkCond_frame s .cond_consumer .consumer_cond with ⟨cond1, printed, crashed, hsame⟩
      simp only [rank, hsame, hpc, Consumer.rank]
      omega
  | wait hpc hempty =>
      have hrank := (hone hpc).1
      have hthen : Consumer.waiting.rank = 0 := rfl
      simp only [rank, hrank, hthen]
      omega
  | remove hpc hsome =>
      have hrank := hone hpc
      have hwake := producer_wake_rank s.producer
      have hthen : Consumer.loop.rank = 1 := rfl
      simp only [rank, hrank.1, hthen]
      omega
  | leave hpc hdone =>
      simp only [rank, hpc, Consumer.rank]
      omega

theorem rank_main (hstep : main s = some s') : rank VALUE_COUNT s' < rank VALUE_COUNT s := by
  cases hmain : s.main <;> simp only [main, hmain] at hstep
  case joining_producer =>
    split_ifs at hstep
    rw [← Option.some.inj hstep]
    simp only [rank, hmain, Main.rank]
    omega
  case joining_consumer =>
    split_ifs at hstep
    rw [← Option.some.inj hstep]
    simp only [rank, hmain, Main.rank]
    omega
  case check_wait =>
    rw [← Option.some.inj hstep]
    simp only [rank, hmain, Main.rank]
    omega
  case check_results =>
    rw [← Option.some.inj hstep]
    simp only [rank, hmain, Main.rank]
    omega
  case returned => cases hstep

theorem rank_step (h : Sound BUFFER_SIZE VALUE_COUNT s) {e : Event} (hwake : e.spurious = false)
    (hstep : step BUFFER_SIZE VALUE_COUNT s e = some s') :
    rank VALUE_COUNT s' < rank VALUE_COUNT s := by
  cases e with
  | producer =>
      simp only [step, h.checked.alive, Bool.false_eq_true, if_false] at hstep
      exact rank_producer h (producer_moves hstep)
  | consumer =>
      simp only [step, h.checked.alive, Bool.false_eq_true, if_false] at hstep
      exact rank_consumer h (consumer_moves hstep)
  | main =>
      simp only [step, h.checked.alive, Bool.false_eq_true, if_false] at hstep
      exact rank_main hstep
  | wake_producer => cases hwake
  | wake_consumer => cases hwake

/-- A producer that cannot go on waits or has returned. -/
theorem producer_stuck (hstuck : producer BUFFER_SIZE VALUE_COUNT s = none) :
    s.producer = .waiting ∨ s.producer = .returned := by
  cases hpc : s.producer <;> simp [producer, hpc] at hstuck ⊢
  split_ifs at hstuck

theorem consumer_stuck (hstuck : consumer VALUE_COUNT s = none) :
    s.consumer = .waiting ∨ s.consumer = .returned := by
  cases hpc : s.consumer <;> simp [consumer, hpc] at hstuck ⊢
  split_ifs at hstuck

/-- If nobody can go on, `main` has returned: the threads cannot both wait, and
    when one has returned the other finds what it waits for. -/
theorem stuck_returned (hsize : 0 < BUFFER_SIZE) (h : Sound BUFFER_SIZE VALUE_COUNT s)
    (hstuck : ∀ e, e.spurious = false → step BUFFER_SIZE VALUE_COUNT s e = none) :
    s.main = .returned := by
  have hp := hstuck .producer rfl
  have hc := hstuck .consumer rfl
  have hm := hstuck .main rfl
  simp only [step, h.checked.alive, Bool.false_eq_true, if_false] at hp hc hm
  have hnumber := number_of_values h.piled
  have hmade := h.places.made
  have hreturned : s.producer = .returned ∧ s.consumer = .returned := by
    rcases producer_stuck hp with hwaits | hgone
    · have hfull := h.places.full hwaits
      rcases consumer_stuck hc with hwaits' | hgone'
      · have hempty := h.places.empty hwaits'
        omega
      · -- The consumer has taken all values, and the stack is full of them.
        have hdone := h.places.consumer_done hgone'
        omega
    · have hdone := h.places.producer_done hgone
      rcases consumer_stuck hc with hwaits' | hgone'
      · have hempty := h.places.empty hwaits'
        omega
      · exact ⟨hgone, hgone'⟩
  cases hmain : s.main with
  | joining_producer => simp [main, hmain, hreturned.1] at hm
  | joining_consumer => simp [main, hmain, hreturned.2] at hm
  | check_wait => simp [main, hmain] at hm
  | check_results => simp [main, hmain] at hm
  | returned => rfl

end Progress

/-- In every run the stack is a pile on which the values are put in order: what
    has been processed is what has come off it, and so nested, and the array is
    used within its bounds only. -/
theorem stack_sound (BUFFER_SIZE VALUE_COUNT : Nat) (s : State)
    (hreach : Reachable (step BUFFER_SIZE VALUE_COUNT) start s) :
    (∃ p, run (pileStep BUFFER_SIZE) (Pile.of (coming 0 VALUE_COUNT)) s.word = some p ∧
        s.processed = p.out ∧ lying s = p.stack) ∧
      Nested s.processed ∧ ∀ x ∈ s.used, 0 ≤ x ∧ x < BUFFER_SIZE := by
  have hpiled := (sound_of_reaches hreach).piled
  have hsorted : (coming 0 VALUE_COUNT).Pairwise (· < ·) := by
    unfold coming
    rw [List.pairwise_map]
    exact (List.pairwise_lt_range' 1 Nat.one_pos).imp fun h => Int.ofNat_lt.mpr h
  exact ⟨⟨_, hpiled.pile, rfl, rfl⟩, pile_nested hsorted hpiled.pile, hpiled.used⟩

/-- Both threads pass their checks, one after the other. -/
def checking : List Event :=
  [.producer, .producer, .producer, .consumer, .consumer, .consumer]

/-- Two values are stored and removed. -/
theorem stack_sound_run :
    ∃ s, Reachable (step 10 20) start s ∧ s.processed = [1, 0] ∧ Nested s.processed := by
  have hend : (run (step 10 20) start
      (checking ++ [.producer, .producer, .consumer, .consumer])).map State.processed
        = some [1, 0] := by decide +kernel
  rcases Option.map_eq_some_iff.mp hend with ⟨s, hrun, hprocessed⟩
  have hreach := reachable_of_run hrun
  exact ⟨s, hreach, hprocessed, (stack_sound 10 20 s hreach).2.1⟩

section Words

variable {BUFFER_SIZE VALUE_COUNT : Nat} {s : State}

/-- A step of a thread that is at the head of its loop and finds what it
    needs. -/
theorem push_happens (h : Sound BUFFER_SIZE VALUE_COUNT s) (hproducer : s.producer = .loop)
    (hconsumer : s.consumer = .loop) (hless : s.i < VALUE_COUNT) (hroom : s.count ≠ BUFFER_SIZE) :
    ∃ s', step BUFFER_SIZE VALUE_COUNT s .producer = some s' ∧ s'.word = s.word ++ [.push] ∧
      s'.producer = .loop ∧ s'.consumer = .loop := by
  refine ⟨produce BUFFER_SIZE s, ?_, ?_⟩
  · simp only [step, h.checked.alive, Bool.false_eq_true, if_false, producer, hproducer]
    rw [if_pos hless]
  · unfold produce
    rw [if_neg hroom]
    exact ⟨rfl, rfl, by rw [hconsumer]; rfl⟩

theorem pop_happens (h : Sound BUFFER_SIZE VALUE_COUNT s) (hproducer : s.producer = .loop)
    (hconsumer : s.consumer = .loop) (hless : s.rounds < VALUE_COUNT) (hsome : s.count ≠ 0) :
    ∃ s', step BUFFER_SIZE VALUE_COUNT s .consumer = some s' ∧ s'.word = s.word ++ [.pop] ∧
      s'.producer = .loop ∧ s'.consumer = .loop := by
  refine ⟨consume s, ?_, ?_⟩
  · simp only [step, h.checked.alive, Bool.false_eq_true, if_false, consumer, hconsumer]
    rw [if_pos hless]
  · unfold consume
    rw [if_neg hsome]
    exact ⟨rfl, by rw [hproducer]; rfl, rfl⟩

/-- What a pile allows, the threads can do: nobody ever has to wait, as each
    operation is left to the thread that can carry it out. -/
theorem word_happens (word : List PileOp) :
    ∀ q, run (pileStep BUFFER_SIZE) (Pile.of (coming 0 VALUE_COUNT)) word = some q →
      ∃ s, Reachable (step BUFFER_SIZE VALUE_COUNT) start s ∧ s.word = word ∧
        s.producer = .loop ∧ s.consumer = .loop := by
  induction word using List.reverseRecOn with
  | nil =>
      intro q _
      have hchecks : ∃ s, run (step BUFFER_SIZE VALUE_COUNT) start checking = some s ∧
          s.word = [] ∧ s.producer = .loop ∧ s.consumer = .loop := ⟨_, rfl, rfl, rfl, rfl⟩
      rcases hchecks with ⟨s, hrun, hword, hloops⟩
      exact ⟨s, reachable_of_run hrun, hword, hloops⟩
  | append_singleton word op ih =>
      intro q hrun
      rcases run_append_eq_some.mp hrun with ⟨q', hfirst, hlast⟩
      rcases ih q' hfirst with ⟨s, hreach, hword, hproducer, hconsumer⟩
      have hsound := sound_of_reaches hreach
      have hpile := hsound.piled.pile
      rw [hword, hfirst, Option.some.injEq] at hpile
      have hnumber := number_of_values hsound.piled
      have hlow := hsound.places.low
      rcases run_cons_eq_some.mp hlast with ⟨q'', hstep, _⟩
      rw [hpile] at hstep
      cases op with
      | push =>
          rcases pileStep_push hstep with ⟨a, rest, hrest, hroom, _⟩
          have hless := congrArg List.length hrest
          simp only [coming_length, List.length_cons] at hless
          simp only [lying_length] at hroom
          rcases push_happens hsound hproducer hconsumer (by omega) (by omega) with
            ⟨s', hs', hword', hloops⟩
          exact ⟨s', Reaches.step s s' _ hreach trivial hs', by rw [hword', hword], hloops⟩
      | pop =>
          rcases pileStep_pop hstep with ⟨a, stack, hstack, _⟩
          have hheight := congrArg List.length hstack
          simp only [lying_length, List.length_cons] at hheight
          rcases pop_happens hsound hproducer hconsumer (by omega) (by omega) with
            ⟨s', hs', hword', hloops⟩
          exact ⟨s', Reaches.step s s' _ hreach trivial hs', by rw [hword', hword], hloops⟩

end Words

/-- The words of stores and removals that can happen are exactly those that a
    pile of `BUFFER_SIZE` elements allows. -/
theorem words_exact (BUFFER_SIZE VALUE_COUNT : Nat) (word : List PileOp) :
    (∃ s, Reachable (step BUFFER_SIZE VALUE_COUNT) start s ∧ s.word = word) ↔
      (run (pileStep BUFFER_SIZE) (Pile.of (coming 0 VALUE_COUNT)) word).isSome = true := by
  constructor
  · rintro ⟨s, hreach, rfl⟩
    rw [(sound_of_reaches hreach).piled.pile]
    rfl
  · intro hsome
    rcases Option.isSome_iff_exists.mp hsome with ⟨q, hrun⟩
    rcases word_happens word q hrun with ⟨s, hreach, hword, _⟩
    exact ⟨s, hreach, hword⟩

/-- What is printed when all is well. -/
def allPass : List (Check × Bool) :=
  [(.mutex_producer, true), (.cond_producer, true), (.mutex_consumer, true),
    (.cond_consumer, true), (.awaiting, true), (.processing, true)]

/-- In every run with the program's number of values, no thread is stuck before
    `main` has returned, each step but a waking for no reason leaves less to do,
    and when `main` has returned each check has passed once. -/
theorem checks_pass (BUFFER_SIZE : Nat) (hsize : 0 < BUFFER_SIZE) (s : State)
    (hreach : Reachable (step BUFFER_SIZE 20) start s) :
    ((∀ e, e.spurious = false → step BUFFER_SIZE 20 s e = none) → s.main = .returned) ∧
      (∀ e t, e.spurious = false → step BUFFER_SIZE 20 s e = some t → rank 20 t < rank 20 s) ∧
      (s.main = .returned → s.printed.Perm allPass) := by
  have hsound := sound_of_reaches hreach
  refine ⟨stuck_returned hsize hsound, fun e t hwake hstep => rank_step hsound hwake hstep,
    fun hmain => ?_⟩
  have hproducer := hsound.joined.producer (by rw [hmain]; decide)
  have hconsumer := hsound.joined.consumer (by rw [hmain]; decide) (by rw [hmain]; decide)
  have hdue : due 20 s = allPass := by
    simp only [due, hmain, hproducer, hconsumer]
    decide
  rw [← hdue]
  exact hsound.checked.printed

/-- Values are stored and removed in turn. -/
theorem checks_pass_run :
    ∃ s, Reachable (step 10 20) start s ∧ s.main = .returned ∧ s.printed.Perm allPass := by
  have hend : (run (step 10 20) start (checking ++
      ((List.replicate 21 [Event.producer, .consumer]).flatten ++
        List.replicate 4 .main))).map State.main = some .returned := by decide +kernel
  rcases Option.map_eq_some_iff.mp hend with ⟨s, hrun, hmain⟩
  have hreach := reachable_of_run hrun
  exact ⟨s, hreach, hmain, (checks_pass 10 (by decide) s hreach).2.2 hmain⟩

end Stack

end Kolos

end OsLabs
