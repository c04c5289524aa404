import Mathlib.Data.Fin.Basic
import Mathlib.Data.List.Infix
import OsLabs.Core.Ring
import OsLabs.Core.Run

/-!
# The Patient Queue

The waiting room of the clinic, `lab9/src/queue.c`: a circular buffer of
pointers to patients, whose size is the macro

`#define QUEUE_SIZE CLINIC_QUEUE_SIZE + 1`

The macro has no parentheses, so `(x + 1) % QUEUE_SIZE` is
`((x + 1) % CLINIC_QUEUE_SIZE) + 1`, and the positions the code walks through
are not `0, 1, 2, 3, 0, …` but `0, 2, 1, 3, 2, 1, 3, …`: position 0 is used
once and never again. `queuePos` is that sequence, and `queuePos_val` computes
it.

Two things follow, and between them they say exactly what the queue can do.
Before the first pop the reader stands at 0, where the writer never arrives,
so the test for a full queue never succeeds and a fifth patient overwrites the
second. After the first pop the ring has three positions, one of them always
empty, so it refuses the third patient. The buffer therefore is a queue of
capacity three only until the first pop and only as long as nobody tries to
add a fourth patient; after the first pop it is a queue of capacity two.
`RoomFor` states this on the operations, and `behavesAsFifo_iff_roomFor` shows
that it is the whole truth: on any other list of operations some answer is
wrong.

## Main definitions

* `PatientQueue`: The circular buffer.
* `next`: The value of `(x + 1) % QUEUE_SIZE`.
* `queue_init`, `queue_is_full`, `queue_is_empty`, `queue_add`, `queue_pop`,
  `queue_count`: The functions of the source.
* `QueueOp`, `Answer`: One call, and what it returns.
* `queueStep`: A call of the code.
* `fifoStep`: The same call on a list of capacity `CLINIC_QUEUE_SIZE`.
* `stored`: What popping until the queue is empty returns.
* `BehavesAsFifo`: The code is a bounded queue on these calls.
* `RoomFor`: No call adds a patient the buffer has no room for.
* `Holds`: The buffer holds a list, between two position numbers.

## Theorems

* `queuePos_val`: The positions the code walks through.
* `Holds.queue_count_eq`: What the count says about the list.
* `holds_add`: What adding does to a buffer that holds a list.
* `holds_add_cases`: The same, whether there is room or not.
* `holds_pop`: What popping does to it.
* `outputs_eq_iff`: The answers are a bounded queue's exactly on `RoomFor`.
* `behavesAsFifo_iff_roomFor`: The whole behaviour is, on the same calls.
* `fourth_patient_accepted`: Four patients are accepted.
-/

namespace OsLabs

namespace Lab9

def CLINIC_QUEUE_SIZE : Nat := 3

/-- `(x + 1) % QUEUE_SIZE` as the preprocessor leaves it, the macro's `+ 1`
    falling outside the remainder. -/
def next (x : Fin (CLINIC_QUEUE_SIZE + 1)) : Fin (CLINIC_QUEUE_SIZE + 1) :=
  ⟨(x.val + 1) % CLINIC_QUEUE_SIZE + 1, Nat.succ_lt_succ (Nat.mod_lt _ (by decide))⟩

/-- `struct PatientQueue`. A patient is a pointer, and `none` is `NULL`. -/
structure PatientQueue (α : Type*) where
  head : Fin (CLINIC_QUEUE_SIZE + 1)
  tail : Fin (CLINIC_QUEUE_SIZE + 1)
  queue_array : Fin (CLINIC_QUEUE_SIZE + 1) → Option α

section Code

variable {α : Type*}

def queue_init : PatientQueue α := { head := 0, tail := 0, queue_array := fun _ => none }

def queue_is_full (queue : PatientQueue α) : Bool := next queue.tail = queue.head

def queue_is_empty (queue : PatientQueue α) : Bool := queue.head = queue.tail

/-- `queue_add`: the new queue, and the value returned. -/
def queue_add (queue : PatientQueue α) (patient : Option α) : PatientQueue α × Int :=
  if patient.isNone then (queue, -1)
  else if queue_is_full queue then (queue, -1)
  else ({ queue with
    queue_array := Function.update queue.queue_array queue.tail patient
    tail := next queue.tail }, 0)

/-- `queue_pop`: the new queue, and the pointer returned. -/
def queue_pop (queue : PatientQueue α) : PatientQueue α × Option α :=
  if queue_is_empty queue then (queue, none)
  else ({ queue with
    queue_array := Function.update queue.queue_array queue.head none
    head := next queue.head }, queue.queue_array queue.head)

/-- `queue_count`. The macro's `+ 1` is added before the remainder is taken and
    again after it. -/
def queue_count (queue : PatientQueue α) : Int :=
  ((queue.tail.val : Int) - queue.head.val + CLINIC_QUEUE_SIZE + 1).tmod CLINIC_QUEUE_SIZE + 1

/-- One call of an outside thread, the patient being a real one. -/
inductive QueueOp (α : Type*)
  | add (p : α)
  | pop

/-- What a call returns. -/
inductive Answer (α : Type*)
  | added (result : Int)
  | popped (patient : Option α)
  deriving DecidableEq

def queueStep (queue : PatientQueue α) : QueueOp α → PatientQueue α × Answer α
  | .add p => ((queue_add queue (some p)).1, .added (queue_add queue (some p)).2)
  | .pop => ((queue_pop queue).1, .popped (queue_pop queue).2)

/-- The bounded queue the buffer is meant to be: a list of at most
    `CLINIC_QUEUE_SIZE` patients, oldest first. -/
def fifoStep (l : List α) : QueueOp α → List α × Answer α
  | .add p => ((fifoAdd CLINIC_QUEUE_SIZE l p).1,
      .added (if (fifoAdd CLINIC_QUEUE_SIZE l p).2 then 0 else -1))
  | .pop => ((fifoPop l).1, .popped (fifoPop l).2)

/-- The patients that popping returns, at most `fuel` of them, until `NULL`. -/
def popAll : Nat → PatientQueue α → List α
  | 0, _ => []
  | fuel + 1, queue => match queue_pop queue with
    | (_, none) => []
    | (queue', some p) => p :: popAll fuel queue'

/-- The patients in the buffer, in the order popping until `NULL` returns
    them. The array has `CLINIC_QUEUE_SIZE + 1` entries. -/
def stored (queue : PatientQueue α) : List α := popAll (CLINIC_QUEUE_SIZE + 1) queue

/-- On these calls, made one after another from `queue_init`, the code is the
    bounded queue: after every prefix of them it has given the same answers
    and holds the same patients in the same order. -/
def BehavesAsFifo (ops : List (QueueOp α)) : Prop :=
  ∀ done, done <+: ops →
    outputs queueStep queue_init done = outputs fifoStep [] done ∧
    stored (after queueStep queue_init done) = after fifoStep [] done

/-- No call adds a patient the buffer has no room for, there being room for
    three until the first successful pop and for two from then on. -/
def RoomFor : (popped : Bool) → (waiting : Nat) → List (QueueOp α) → Prop
  | _, _, [] => True
  | popped, waiting, .add _ :: ops =>
    waiting < (if popped then 2 else 3) ∧ RoomFor popped (waiting + 1) ops
  | popped, 0, .pop :: ops => RoomFor popped 0 ops
  | _, waiting + 1, .pop :: ops => RoomFor true waiting ops

end Code

/-- The positions in the order the code uses them. -/
def queuePos : Nat → Fin (CLINIC_QUEUE_SIZE + 1)
  | 0 => 0
  | k + 1 => next (queuePos k)

theorem queuePos_val (k : Nat) :
    (queuePos (k + 1)).val = if k % 3 = 0 then 2 else if k % 3 = 1 then 1 else 3 := by
  induction k with
  | zero => rfl
  | succ k ih =>
      have hnext : (queuePos (k + 2)).val = ((queuePos (k + 1)).val + 1) % 3 + 1 := rfl
      rw [hnext, ih]
      -- After position 0 the indices run through 2, 1, 3 and round again.
      have hmod : k % 3 = 0 ∨ k % 3 = 1 ∨ k % 3 = 2 := by omega
      rcases hmod with h | h | h
      · rw [if_pos h, if_neg (by omega), if_pos (by omega)]
      · rw [if_neg (by omega), if_pos h, if_neg (by omega), if_neg (by omega)]
      · rw [if_neg (by omega), if_neg (by omega), if_pos (by omega)]

/-- Position 0 is left behind for good. -/
theorem queuePos_succ_ne_zero (k : Nat) : queuePos (k + 1) ≠ queuePos 0 := by
  intro h
  have hval : (queuePos (k + 1)).val = 0 := congrArg Fin.val h
  rw [queuePos_val] at hval
  split_ifs at hval

/-- From then on the positions repeat every three steps. -/
theorem queuePos_eq_iff (i j : Nat) : queuePos (i + 1) = queuePos (j + 1) ↔ i % 3 = j % 3 := by
  rw [Fin.ext_iff, queuePos_val, queuePos_val]
  split_ifs <;> omega

/-- The buffer holds the list `l`: its entries are the positions numbered
    from `h` on, and there are at most three of them before position 0 has
    been read, at most two afterwards. -/
structure Holds {α : Type*} (queue : PatientQueue α) (h : Nat) (l : List α) : Prop where
  head_eq : queue.head = queuePos h
  tail_eq : queue.tail = queuePos (h + l.length)
  slots : window queuePos queue.queue_array h l.length = l.map some
  room : l.length ≤ if h = 0 then 3 else 2

section Proofs

variable {α : Type*}

/-- The limit on an addition, with the flag read off a position number. -/
theorem roomFor_add_iff (h waiting : Nat) (p : α) (ops : List (QueueOp α)) :
    RoomFor (decide (h ≠ 0)) waiting (.add p :: ops) ↔
      waiting < (if h = 0 then 3 else 2) ∧ RoomFor (decide (h ≠ 0)) (waiting + 1) ops := by
  by_cases hh : h = 0
  · rw [RoomFor, if_pos hh, decide_eq_false (not_not_intro hh), if_neg Bool.false_ne_true]
  · rw [RoomFor, if_neg hh, decide_eq_true hh, if_pos rfl]

theorem roomFor_head {popped : Bool} {waiting : Nat} {op : QueueOp α} {ops : List (QueueOp α)}
    (h : RoomFor popped waiting (op :: ops)) : RoomFor popped waiting [op] := by
  cases op with
  | add p => exact ⟨h.1, trivial⟩
  | pop => cases waiting <;> exact trivial

theorem roomFor_prefix {popped : Bool} {waiting : Nat} {done ops : List (QueueOp α)}
    (hpre : done <+: ops) (h : RoomFor popped waiting ops) : RoomFor popped waiting done := by
  induction done generalizing popped waiting ops with
  | nil => exact trivial
  | cons op done ih =>
      rcases hpre with ⟨rest, rfl⟩
      rw [List.cons_append] at h
      cases op with
      | add p => exact ⟨h.1, ih (List.prefix_append done rest) h.2⟩
      | pop =>
          cases waiting with
          | zero => exact ih (List.prefix_append done rest) h
          | succ n => exact ih (List.prefix_append done rest) h

theorem holds_init : Holds (queue_init : PatientQueue α) 0 [] where
  head_eq := rfl
  tail_eq := rfl
  slots := rfl
  room := Nat.zero_le _

/-- The next free position does not occur in a window the buffer has room
    for. -/
theorem queuePos_free (h len k : Nat) (hlen : len ≤ if h = 0 then 3 else 2) (hk : k < len) :
    queuePos (h + k) ≠ queuePos (h + len) := by
  rcases h with _ | h
  · -- Before the first pop the window begins with position 0, which no other equals.
    rw [if_pos rfl] at hlen
    rcases k with _ | k
    · rw [show 0 + len = len - 1 + 1 by omega]
      exact (queuePos_succ_ne_zero _).symm
    · rw [show 0 + (k + 1) = k + 1 by omega, show 0 + len = len - 1 + 1 by omega]
      intro heq
      have hmod := (queuePos_eq_iff _ _).mp heq
      omega
  · -- Afterwards two numbers in the window differ by less than a turn of three.
    rw [if_neg (by omega)] at hlen
    rw [show h + 1 + k = h + k + 1 by omega, show h + 1 + len = h + len + 1 by omega]
    intro heq
    have hmod := (queuePos_eq_iff _ _).mp heq
    omega

theorem Holds.queue_is_empty_eq {queue : PatientQueue α} {h : Nat} {l : List α}
    (hq : Holds queue h l) : queue_is_empty queue = l.isEmpty := by
  rw [queue_is_empty, hq.head_eq, hq.tail_eq]
  rcases l with _ | ⟨p, l⟩
  · exact decide_eq_true rfl
  · have hne := queuePos_free h (p :: l).length 0 hq.room (by simp only [List.length_cons]; omega)
    exact decide_eq_false hne

/-- The test for a full queue: it never succeeds before the first pop, and
    succeeds on two patients afterwards. -/
theorem Holds.queue_is_full_eq {queue : PatientQueue α} {h : Nat} {l : List α}
    (hq : Holds queue h l) : queue_is_full queue = decide (h ≠ 0 ∧ l.length = 2) := by
  have hnext : next queue.tail = queuePos (h + l.length + 1) := by rw [hq.tail_eq]; rfl
  rw [queue_is_full, hnext, hq.head_eq]
  refine decide_eq_decide.mpr ?_
  have hroom := hq.room
  -- The position after the tail is the head only a whole turn of three later.
  rcases h with _ | h
  · exact ⟨fun heq => absurd heq (queuePos_succ_ne_zero _), fun hc => absurd rfl hc.1⟩
  · rw [if_neg (by omega)] at hroom
    rw [show h + 1 + l.length + 1 = h + l.length + 1 + 1 by omega, queuePos_eq_iff]
    omega

/-- What the count says: it is right if one patient waits, and never
    otherwise. -/
theorem Holds.queue_count_eq {queue : PatientQueue α} {h : Nat} {l : List α}
    (hq : Holds queue h l) :
    queue_count queue = if l.length = 1 then 1 else if l.length = 2 then 3 else 2 := by
  have hroom := hq.room
  have hlt : ∀ x : Fin (CLINIC_QUEUE_SIZE + 1), x.val ≤ 3 := fun x => Nat.le_of_lt_succ x.isLt
  -- The remainder depends on the distance from the head to the tail only.
  have hcount : ∀ a b : Nat, a ≤ 3 → ((b : Int) - a + 3 + 1).tmod 3 + 1
      = ((b + 4 - a) % 3 : Nat) + 1 := by
    intro a b ha
    rw [Int.tmod_eq_emod_of_nonneg (by omega)]
    omega
  rw [queue_count, hq.head_eq, hq.tail_eq]
  refine (hcount _ _ (hlt _)).trans ?_
  rcases h with _ | h
  · rw [if_pos rfl] at hroom
    -- The positions 0, 2, 1, 3, one after another.
    have hlen : l.length = 0 ∨ l.length = 1 ∨ l.length = 2 ∨ l.length = 3 := by omega
    rcases hlen with hl | hl | hl | hl <;> rw [hl] <;> decide
  · rw [if_neg (by omega)] at hroom
    rw [show h + 1 + l.length = h + l.length + 1 by omega, queuePos_val, queuePos_val]
    have hlen : l.length = 0 ∨ l.length = 1 ∨ l.length = 2 := by omega
    have hmod : h % 3 = 0 ∨ h % 3 = 1 ∨ h % 3 = 2 := by omega
    rcases hlen with hl | hl | hl <;> rcases hmod with hm | hm | hm <;>
      simp [hl, hm, Nat.add_mod]

/-- It says that the queue is full when two patients are in it, and only
    then. -/
theorem Holds.queue_count_eq_iff {queue : PatientQueue α} {h : Nat} {l : List α}
    (hq : Holds queue h l) : queue_count queue = CLINIC_QUEUE_SIZE ↔ l.length = 2 := by
  have hsize : (CLINIC_QUEUE_SIZE : Int) = 3 := rfl
  rw [hq.queue_count_eq, hsize]
  split_ifs <;> omega

/-- Adding to a buffer with room for one more appends the patient. -/
theorem holds_add {queue : PatientQueue α} {h : Nat} {l : List α} (hq : Holds queue h l) (p : α)
    (hroom : l.length < if h = 0 then 3 else 2) :
    (queue_add queue (some p)).2 = 0 ∧ Holds (queue_add queue (some p)).1 h (l ++ [p]) := by
  have hfull : queue_is_full queue = false := by
    rw [hq.queue_is_full_eq, decide_eq_false_iff_not]
    rintro ⟨hh, hlen⟩
    rw [if_neg hh] at hroom
    omega
  have hadd : queue_add queue (some p)
      = ({ queue with
          queue_array := Function.update queue.queue_array queue.tail (some p)
          tail := next queue.tail }, 0) := by
    rw [queue_add, hfull]
    rfl
  rw [hadd]
  -- The head stays, the tail moves on by one, and the window grows at its end.
  refine ⟨rfl, hq.head_eq, ?_, ?_, ?_⟩
  · rw [List.length_append, List.length_singleton, ← Nat.add_assoc]
    simp only [hq.tail_eq]
    rfl
  · have hpush := window_push queuePos queue.queue_array h l.length (some p)
      (fun k hk => queuePos_free h l.length k hq.room hk)
    rw [List.length_append, List.length_singleton, List.map_append, List.map_singleton,
      ← hq.slots]
    simp only [hq.tail_eq]
    exact hpush
  · rw [List.length_append, List.length_singleton]
    exact hroom

/-- A full buffer refuses the patient, once something has been popped. -/
theorem holds_add_full {queue : PatientQueue α} {h : Nat} {l : List α} (hq : Holds queue h l)
    (p : α) (hh : h ≠ 0) (hlen : l.length = 2) : queue_add queue (some p) = (queue, -1) := by
  have hfull : queue_is_full queue = true := by
    rw [hq.queue_is_full_eq, decide_eq_true_iff]
    exact ⟨hh, hlen⟩
  rw [queue_add, hfull]
  rfl

/-- Before the first pop a fourth patient is accepted, and what the buffer then
    holds is the first patient only: the tail has come round to the second
    one's position. -/
theorem holds_add_overrun {queue : PatientQueue α} {l : List α} (hq : Holds queue 0 l) (p : α)
    (hlen : l.length = 3) :
    (queue_add queue (some p)).2 = 0 ∧ Holds (queue_add queue (some p)).1 0 (l.take 1) := by
  have hfull : queue_is_full queue = false := by
    rw [hq.queue_is_full_eq, decide_eq_false_iff_not]
    exact fun hc => hc.1 rfl
  have hadd : queue_add queue (some p)
      = ({ queue with
          queue_array := Function.update queue.queue_array queue.tail (some p)
          tail := next queue.tail }, 0) := by
    rw [queue_add, hfull]
    rfl
  have htail : queue.tail = queuePos 3 := by rw [hq.tail_eq, hlen]
  have hslots := hq.slots
  rcases l with _ | ⟨a, l⟩
  · cases hlen
  rw [List.length_cons, window_pop, List.map_cons, List.cons.injEq] at hslots
  rw [hadd]
  have hturn : next (queuePos 3) = queuePos 1 := by decide
  refine ⟨rfl, hq.head_eq, ?_, ?_, Nat.le_of_ble_eq_true rfl⟩
  · simp only [htail, hturn]
    rfl
  · have hkeep := window_update queuePos queue.queue_array 0 1 (queuePos 3) (some p)
      (fun k hk => by rw [Nat.lt_one_iff.mp hk]; exact (queuePos_succ_ne_zero 2).symm)
    simp only [htail]
    refine hkeep.trans ?_
    rw [window_pop, window_zero, hslots.1]
    rfl

/-- What adding a patient can do. -/
theorem holds_add_cases {queue : PatientQueue α} {h : Nat} {l : List α} (hq : Holds queue h l)
    (p : α) :
    ((queue_add queue (some p)).2 = 0 ∧ Holds (queue_add queue (some p)).1 h (l ++ [p])) ∨
      queue_add queue (some p) = (queue, -1) ∨
      (l.length = 3 ∧ (queue_add queue (some p)).2 = 0 ∧
        Holds (queue_add queue (some p)).1 h (l.take 1)) := by
  have hmax := hq.room
  by_cases hroom : l.length < if h = 0 then 3 else 2
  · exact Or.inl (holds_add hq p hroom)
  · by_cases hh : h = 0
    · subst hh
      rw [if_pos rfl] at hroom hmax
      have hlen : l.length = 3 := by omega
      exact Or.inr (Or.inr ⟨hlen, holds_add_overrun hq p hlen⟩)
    · rw [if_neg hh] at hroom hmax
      exact Or.inr (Or.inl (holds_add_full hq p hh (by omega)))

/-- Popping an empty buffer returns `NULL` and changes nothing. -/
theorem holds_pop_nil {queue : PatientQueue α} {h : Nat} (hq : Holds queue h []) :
    queue_pop queue = (queue, none) := by
  rw [queue_pop, hq.queue_is_empty_eq]
  rfl

/-- Popping returns the oldest patient and removes it. -/
theorem holds_pop {queue : PatientQueue α} {h : Nat} {p : α} {l : List α}
    (hq : Holds queue h (p :: l)) :
    (queue_pop queue).2 = some p ∧ Holds (queue_pop queue).1 (h + 1) l := by
  have hpop : queue_pop queue
      = ({ queue with
          queue_array := Function.update queue.queue_array queue.head none
          head := next queue.head }, queue.queue_array queue.head) := by
    rw [queue_pop, hq.queue_is_empty_eq]
    rfl
  have hslots := hq.slots
  have hroom := hq.room
  rw [List.length_cons] at hslots hroom
  rw [window_pop, List.map_cons, List.cons.injEq] at hslots
  -- The position just read is not among those still waiting.
  have hclear := window_update queuePos queue.queue_array (h + 1) l.length (queuePos h) none
    (fun k hk => by
      have hne := queuePos_free h (k + 1) 0 (by omega) (by omega)
      rw [show h + 1 + k = h + (k + 1) by omega]
      exact hne.symm)
  rw [hpop]
  refine ⟨by rw [hq.head_eq]; exact hslots.1, ?_, ?_, ?_, ?_⟩
  · simp only [hq.head_eq]
    rfl
  · have htail := hq.tail_eq
    rw [List.length_cons] at htail
    rw [show h + 1 + l.length = h + (l.length + 1) by omega]
    exact htail
  · simp only [hq.head_eq]
    rw [hclear]
    exact hslots.2
  · rw [if_neg (by omega)]
    split_ifs at hroom <;> omega

/-- Popping until `NULL` returns exactly what the buffer holds. -/
theorem popAll_eq (fuel : Nat) : ∀ (queue : PatientQueue α) (h : Nat) (l : List α),
    Holds queue h l → l.length < fuel → popAll fuel queue = l := by
  induction fuel with
  | zero => intro queue h l _ hlen; omega
  | succ n ih =>
      intro queue h l hq hlen
      rw [popAll]
      rcases l with _ | ⟨p, l⟩
      · rw [holds_pop_nil hq]
      · rcases holds_pop hq with ⟨hp, hrest⟩
        rw [List.length_cons] at hlen
        have hpair : queue_pop queue = ((queue_pop queue).1, some p) := by rw [← hp]
        rw [hpair]
        simp only []
        rw [ih _ (h + 1) l hrest (by omega)]

theorem Holds.stored_eq {queue : PatientQueue α} {h : Nat} {l : List α} (hq : Holds queue h l) :
    stored queue = l := by
  have hroom := hq.room
  refine popAll_eq _ queue h l hq ?_
  rw [CLINIC_QUEUE_SIZE]
  split_ifs at hroom <;> omega

/-- Without room the code answers wrongly either way: before the first pop it
    accepts a fourth patient, afterwards it refuses a third. -/
theorem answer_without_room {queue : PatientQueue α} {h : Nat} {l : List α}
    (hq : Holds queue h l) (p : α) (hroom : ¬ l.length < if h = 0 then 3 else 2) :
    (queueStep queue (.add p)).2 ≠ (fifoStep l (.add p)).2 := by
  have hmax := hq.room
  by_cases hh : h = 0
  · -- Three wait, but the full test compares with position 0 and never succeeds.
    rw [if_pos hh] at hroom hmax
    have hfull : queue_is_full queue = false := by
      rw [hq.queue_is_full_eq, decide_eq_false_iff_not]
      exact fun hc => hc.1 hh
    have hcode : (queueStep queue (.add p)).2 = .added 0 := by
      rw [queueStep, queue_add, hfull]
      rfl
    have hfifo : (fifoStep l (.add p)).2 = .added (-1) := by
      rw [fifoStep, fifoAdd, if_neg (by rw [CLINIC_QUEUE_SIZE]; omega)]
      rfl
    rw [hcode, hfifo, Ne, Answer.added.injEq]
    decide
  · -- Two wait, and of the three positions left one always stays unused.
    rw [if_neg hh] at hroom hmax
    have hcode : (queueStep queue (.add p)).2 = .added (-1) := by
      rw [queueStep, holds_add_full hq p hh (by omega)]
    have hfifo : (fifoStep l (.add p)).2 = .added 0 := by
      rw [fifoStep, fifoAdd, if_pos (by rw [CLINIC_QUEUE_SIZE]; omega)]
      rfl
    rw [hcode, hfifo, Ne, Answer.added.injEq]
    decide

/-- One call on a buffer that holds a list: if it finds room it is answered as
    the bounded queue answers it, and the buffer then holds the bounded
    queue's new list, with the room for later calls moved along. -/
theorem holds_step {queue : PatientQueue α} {h : Nat} {l : List α} (hq : Holds queue h l)
    (op : QueueOp α) (hroom : RoomFor (decide (h ≠ 0)) l.length [op]) :
    (queueStep queue op).2 = (fifoStep l op).2 ∧
    ∃ h', Holds (queueStep queue op).1 h' (fifoStep l op).1 ∧
      ∀ ops, RoomFor (decide (h ≠ 0)) l.length (op :: ops) ↔
        RoomFor (decide (h' ≠ 0)) (fifoStep l op).1.length ops := by
  cases op with
  | add p =>
      have hlt : l.length < if h = 0 then 3 else 2 := (roomFor_add_iff h l.length p []).mp hroom |>.1
      rcases holds_add hq p hlt with ⟨hres, hnew⟩
      have hlen : l.length < CLINIC_QUEUE_SIZE := by
        rw [CLINIC_QUEUE_SIZE]
        split_ifs at hlt <;> omega
      have hfifo : fifoStep l (.add p) = (l ++ [p], .added 0) := by
        rw [fifoStep, fifoAdd, if_pos hlen]
        rfl
      rw [hfifo]
      refine ⟨by rw [queueStep, hres], h, hnew, fun ops => ?_⟩
      rw [roomFor_add_iff, List.length_append, List.length_singleton]
      exact and_iff_right hlt
  | pop =>
      rcases l with _ | ⟨p, l⟩
      · have hcode : queueStep queue .pop = (queue, .popped none) := by
          rw [queueStep, holds_pop_nil hq]
        rw [hcode]
        exact ⟨rfl, h, hq, fun ops => Iff.rfl⟩
      · rcases holds_pop hq with ⟨hp, hnew⟩
        -- From the first successful pop on the limit is two.
        refine ⟨by rw [queueStep, hp]; rfl, h + 1, hnew, fun ops => ?_⟩
        rw [decide_eq_true (Nat.succ_ne_zero h)]
        rfl

/-- The answers agree with the bounded queue's exactly when every patient
    added finds room. The induction is on the calls; the first call without
    room is answered differently. -/
theorem outputs_eq_iff (ops : List (QueueOp α)) :
    ∀ (queue : PatientQueue α) (h : Nat) (l : List α), Holds queue h l →
      (outputs queueStep queue ops = outputs fifoStep l ops ↔
        RoomFor (decide (h ≠ 0)) l.length ops) := by
  induction ops with
  | nil => intro queue h l _; exact ⟨fun _ => trivial, fun _ => rfl⟩
  | cons op ops ih =>
      intro queue h l hq
      rw [outputs, outputs, List.cons.injEq]
      by_cases hroom : RoomFor (decide (h ≠ 0)) l.length [op]
      · rcases holds_step hq op hroom with ⟨hans, h', hnew, hmove⟩
        rw [hmove ops, ← ih _ h' _ hnew]
        exact and_iff_right hans
      · -- Only an addition can lack room, and its answer is then wrong.
        refine ⟨fun hc => absurd hc.1 ?_, fun hc => absurd (roomFor_head hc) hroom⟩
        cases op with
        | add p =>
            refine answer_without_room hq p (fun hlt => hroom ?_)
            exact (roomFor_add_iff h l.length p []).mpr ⟨hlt, trivial⟩
        | pop => cases l <;> exact absurd trivial hroom

/-- As long as every patient added finds room, the buffer goes on holding the
    bounded queue's list. -/
theorem stored_after (ops : List (QueueOp α)) :
    ∀ (queue : PatientQueue α) (h : Nat) (l : List α), Holds queue h l →
      RoomFor (decide (h ≠ 0)) l.length ops →
      stored (after queueStep queue ops) = after fifoStep l ops := by
  induction ops with
  | nil => intro queue h l hq _; exact hq.stored_eq
  | cons op ops ih =>
      intro queue h l hq hroom
      rcases holds_step hq op (roomFor_head hroom) with ⟨_, h', hnew, hmove⟩
      exact ih _ h' _ hnew ((hmove ops).mp hroom)

/-- The buffer is a bounded queue on a list of calls exactly when none of them
    adds a patient it has no room for: a fourth one before anybody has been
    popped, or a third one afterwards. -/
theorem behavesAsFifo_iff_roomFor (ops : List (QueueOp α)) :
    BehavesAsFifo ops ↔ RoomFor false 0 ops := by
  constructor
  · intro h
    exact (outputs_eq_iff ops queue_init 0 [] holds_init).mp (h ops (List.prefix_refl ops)).1
  · intro h done hdone
    have hroom : RoomFor false 0 done := roomFor_prefix hdone h
    exact ⟨(outputs_eq_iff done queue_init 0 [] holds_init).mpr hroom,
      stored_after done queue_init 0 [] holds_init hroom⟩

/-- Four patients are accepted by a queue of capacity three. -/
theorem fourth_patient_accepted :
    ¬ ∀ ops : List (QueueOp Nat), BehavesAsFifo ops := by
  intro h
  have hfour := (h [.add 1, .add 2, .add 3, .add 4] _ (List.prefix_refl _)).1
  exact absurd hfour (by decide)

end Proofs

end Lab9

end OsLabs
