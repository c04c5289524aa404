import OsLabs.Core.Run
import Mathlib.Data.Fin.Basic
import Mathlib.Tactic.SplitIfs

/-!
# The Integration Service

`lab5/src/calculator.c` and `lab5/src/sender.c` as a transition system: any
number of senders and one calculator that share the FIFO `interval`. A sender
opens it for writing, writes the two bounds of its interval, closes it, opens it
again for reading and reports what it reads as the result. The calculator does
the same the other way round.

A step is one system call. `open` is two: the call, and the return, once the
other end is open or somebody waits to open it; all who wait for each other's
end return together. `read` waits while the FIFO is empty and somebody has it
open for writing, and returns nothing at its end. Who writes while nobody has it
open for reading is killed by `SIGPIPE`. What has not been read is lost once
nobody has the FIFO open.

A double is a value of any type, and `greater` is its comparison. What
`integrate` returns depends on the order in which the partial results of its
workers arrive, and is part of the event; the calculator ends when one of them
cannot be started. That a call of `open` fails is part of the event as well.

The last two components of the state are history: the integrals computed, and
what the senders have reported.

## Main definitions

* `Sender`, `Calculator`: Where a process stands.
* `State`, `Event`, `step`, `start`: The transition system.
* `Sender.busy`: The sender is between its `open` for writing and its `close`
  after reading.
* `Alone`: A sender opens the FIFO for writing only while no other is busy, and
  the calculator does not have it open for reading.
* `Answered`: What the senders report has been computed for their intervals.
-/

namespace OsLabs

namespace Lab5

/-- The two ends of the FIFO. -/
inductive End
  | read
  | write
  deriving DecidableEq

/-- An integral: the bounds and the value. -/
structure Integral (Double : Type) where
  a : Double
  b : Double
  value : Double
  deriving DecidableEq

/-- Where a sender stands, with the interval it has read from its user. -/
inductive Sender (Double : Type)
  | entering
  /-- `open` for writing is next. -/
  | requesting (a b : Double)
  | opening_write (a b : Double)
  | writing_a (a b : Double)
  | writing_b (a b : Double)
  | closing_write (a b : Double)
  /-- `open` for reading is next. -/
  | fetching (a b : Double)
  | opening_read (a b : Double)
  | reading (a b : Double)
  | closing_read
  /-- It has quit or been killed. -/
  | gone
  deriving DecidableEq

/-- Where the calculator stands. -/
inductive Calculator (Double : Type)
  /-- `open` for reading is next. -/
  | listening
  | opening_read
  | reading_a
  | reading_b (a : Double)
  /-- `close` is next, with the interval unless a read has failed. -/
  | closing_read (interval : Option (Double × Double))
  | integrating (a b : Double)
  /-- `open` for writing is next. -/
  | answering (integralResult : Double)
  | opening_write (integralResult : Double)
  | writing (integralResult : Double)
  | closing_write
  /-- It has ended or been killed. -/
  | gone
  deriving DecidableEq

structure State (n : Nat) (Double : Type) where
  /-- What has been written and not read. -/
  pipe : List Double
  sender : Fin n → Sender Double
  calculator : Calculator Double
  /-- The integrals computed, in order. -/
  computed : List (Integral Double)
  /-- The results reported, each with the interval its sender wrote. -/
  reported : List (Integral Double)

/-- What `fgets` and `sscanf` make of a line. -/
inductive Line (Double : Type)
  | quit
  | invalid
  | interval (a b : Double)

inductive Event (n : Nat) (Double : Type)
  /-- A sender reads a line from its user. -/
  | input (i : Fin n) (line : Line Double)
  /-- A sender makes its next call; `fails` says whether an `open` does. -/
  | sender (i : Fin n) (fails : Bool)
  /-- The calculator makes its next call, or computes an integral. -/
  | calculator (fails : Bool) (total : Double)

variable {n : Nat} {Double : Type}

/-- The end the sender has open. -/
def Sender.has : Sender Double → Option End
  | .writing_a _ _ => some .write
  | .writing_b _ _ => some .write
  | .closing_write _ _ => some .write
  | .reading _ _ => some .read
  | .closing_read => some .read
  | _ => none

/-- The end the sender waits to open. -/
def Sender.wants : Sender Double → Option End
  | .opening_write _ _ => some .write
  | .opening_read _ _ => some .read
  | _ => none

/-- The sender after the return of its `open`. -/
def Sender.admitted : Sender Double → Sender Double
  | .opening_write a b => .writing_a a b
  | .opening_read a b => .reading a b
  | place => place

def Calculator.has : Calculator Double → Option End
  | .reading_a => some .read
  | .reading_b _ => some .read
  | .closing_read _ => some .read
  | .writing _ => some .write
  | .closing_write => some .write
  | _ => none

def Calculator.wants : Calculator Double → Option End
  | .opening_read => some .read
  | .opening_write _ => some .write
  | _ => none

def Calculator.admitted : Calculator Double → Calculator Double
  | .opening_read => .reading_a
  | .opening_write integralResult => .writing integralResult
  | place => place

/-- Somebody has this end open. -/
def State.hasEnd (s : State n Double) (e : End) : Prop :=
  s.calculator.has = some e ∨ ∃ i, (s.sender i).has = some e

/-- Somebody has this end open or waits to open it. -/
def State.present (s : State n Double) (e : End) : Prop :=
  s.hasEnd e ∨ s.calculator.wants = some e ∨ ∃ i, (s.sender i).wants = some e

instance (s : State n Double) (e : End) : Decidable (s.hasEnd e) :=
  inferInstanceAs (Decidable (_ ∨ _))

instance (s : State n Double) (e : End) : Decidable (s.present e) :=
  inferInstanceAs (Decidable (_ ∨ _))

/-- A sender goes on at another place. -/
def State.move (s : State n Double) (i : Fin n) (place : Sender Double) : State n Double :=
  { s with sender := Function.update s.sender i place }

/-- Somebody has begun to wait in `open`. If both ends are there, everybody who
    waits returns. -/
def State.rendezvous (s : State n Double) : State n Double :=
  if s.present .read ∧ s.present .write then
    { s with sender := fun i => (s.sender i).admitted, calculator := s.calculator.admitted }
  else s

/-- Somebody has given up an end. What has not been read is lost with the last
    one. -/
def State.release (s : State n Double) : State n Double :=
  if s.hasEnd .read ∨ s.hasEnd .write then s else { s with pipe := [] }

/-- A line of input, taken at the head of the loop. -/
def input (greater : Double → Double → Bool) (s : State n Double) (i : Fin n) :
    Line Double → Option (State n Double)
  | .quit => some (s.move i .gone)
  | .invalid => some s
  | .interval a b => some (if greater a b then s else s.move i (.requesting a b))

/-- The next call of a sender. -/
def sender (s : State n Double) (i : Fin n) (fails : Bool) : Option (State n Double) :=
  match s.sender i with
  | .entering => none
  | .requesting a b => some
      (if fails then s.move i .entering else (s.move i (.opening_write a b)).rendezvous)
  | .opening_write _ _ => none
  -- Writing without a reader is the end of the sender.
  | .writing_a a b => some
      (if s.hasEnd .read then { s.move i (.writing_b a b) with pipe := s.pipe ++ [a] }
      else (s.move i .gone).release)
  | .writing_b a b => some
      (if s.hasEnd .read then { s.move i (.closing_write a b) with pipe := s.pipe ++ [b] }
      else (s.move i .gone).release)
  | .closing_write a b => some (s.move i (.fetching a b)).release
  | .fetching a b => some
      (if fails then s.move i .entering else (s.move i (.opening_read a b)).rendezvous)
  | .opening_read _ _ => none
  | .reading a b =>
    match s.pipe with
    | result :: pipe => some
        { s.move i .closing_read with
          pipe := pipe
          reported := s.reported ++ [⟨a, b, result⟩] }
    -- At the end of the file it reports nothing.
    | [] => if s.hasEnd .write then none else some (s.move i .closing_read)
  | .closing_read => some (s.move i .entering).release
  | .gone => none

/-- The next call of the calculator. -/
def calculator (s : State n Double) (fails : Bool) (total : Double) : Option (State n Double) :=
  match s.calculator with
  | .listening => some
      (if fails then s else { s with calculator := .opening_read : State n Double }.rendezvous)
  | .opening_read => none
  | .reading_a =>
    match s.pipe with
    | a :: pipe => some { s with calculator := .reading_b a, pipe := pipe }
    | [] => if s.hasEnd .write then none else some { s with calculator := .closing_read none }
  | .reading_b a =>
    match s.pipe with
    | b :: pipe => some { s with calculator := .closing_read (some (a, b)), pipe := pipe }
    | [] => if s.hasEnd .write then none else some { s with calculator := .closing_read none }
  -- Without both bounds the calculator begins anew.
  | .closing_read none => some { s with calculator := .listening : State n Double }.release
  | .closing_read (some (a, b)) => some
      { s with calculator := .integrating a b : State n Double }.release
  -- A pipe or a worker that cannot be had is the end of the calculator.
  | .integrating a b => some
      (if fails then { s with calculator := .gone }
      else { s with calculator := .answering total, computed := s.computed ++ [⟨a, b, total⟩] })
  -- An answer it cannot open the FIFO for is dropped.
  | .answering integralResult => some
      (if fails then { s with calculator := .listening }
      else { s with calculator := .opening_write integralResult : State n Double }.rendezvous)
  | .opening_write _ => none
  | .writing integralResult => some
      (if s.hasEnd .read then
        { s with calculator := .closing_write, pipe := s.pipe ++ [integralResult] }
      else { s with calculator := .gone : State n Double }.release)
  | .closing_write => some { s with calculator := .listening : State n Double }.release
  | .gone => none

def step (greater : Double → Double → Bool) (s : State n Double) :
    Event n Double → Option (State n Double)
  | .input i line =>
    match s.sender i with
    | .entering => input greater s i line
    | _ => none
  | .sender i fails => sender s i fails
  | .calculator fails total => calculator s fails total

/-- The state in which the processes have been started. -/
def start (n : Nat) (Double : Type) : State n Double where
  pipe := []
  sender _ := .entering
  calculator := .listening
  computed := []
  reported := []

/-- The sender is between its `open` for writing and its `close` after reading. -/
def Sender.busy : Sender Double → Bool
  | .entering => false
  | .requesting _ _ => false
  | .gone => false
  | _ => true

/-- The sender calls `open` for writing next. -/
def Sender.opens : Sender Double → Bool
  | .requesting _ _ => true
  | _ => false

/-- A sender opens the FIFO for writing only while no other sender is busy and
    the calculator does not have it open for reading. -/
def Alone (s : State n Double) : Event n Double → Prop
  | .sender i fails => fails = false → (s.sender i).opens = true →
      (∀ j, j ≠ i → (s.sender j).busy = false) ∧ s.calculator.has ≠ some .read
  | _ => True

instance (s : State n Double) : ∀ e, Decidable (Alone s e)
  | .input _ _ => isTrue trivial
  | .sender _ _ => inferInstanceAs (Decidable (_ → _ → _ ∧ _))
  | .calculator _ _ => isTrue trivial

/-- Every result reported is the integral that has been computed for the interval
    its sender wrote. -/
def Answered (s : State n Double) : Prop := ∀ r ∈ s.reported, r ∈ s.computed

section Frames

variable (s : State n Double)

@[simp] theorem release_sender : s.release.sender = s.sender := by
  unfold State.release
  split_ifs <;> rfl

theorem admitted_gone {place : Sender Double} (h : place.admitted = .gone) : place = .gone := by
  cases place <;> first | rfl | cases h

/-- Nobody is killed while it waits. -/
theorem rendezvous_gone {i : Fin n} (h : s.rendezvous.sender i = .gone) : s.sender i = .gone := by
  unfold State.rendezvous at h
  split_ifs at h
  · exact admitted_gone h
  · exact h

@[simp] theorem move_self (i : Fin n) (place : Sender Double) :
    (s.move i place).sender i = place := by
  simp only [State.move, Function.update_self]

@[simp] theorem move_of_ne {i j : Fin n} (hne : j ≠ i) (place : Sender Double) :
    (s.move i place).sender j = s.sender j := by
  simp only [State.move, Function.update_of_ne hne]

theorem move_move (i : Fin n) (place place' : Sender Double) :
    (s.move i place).move i place' = s.move i place' := by
  simp only [State.move, Function.update_idem]

end Frames

end Lab5

end OsLabs
