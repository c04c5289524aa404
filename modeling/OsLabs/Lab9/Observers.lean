import OsLabs.Lab9.Queue

/-!
# What the Queue Says of Itself

`queue_count`, `queue_is_empty` and `queue_is_full` look at the head and the
tail of the queue. They should tell how many of the patients that were accepted
have not been popped yet.

They do not, because of the macro `QUEUE_SIZE`. The count is never zero, being
one more than a remainder, and for two patients it is three. The test for a full
queue succeeds for two patients or never. Only when one patient is there do all
three agree with what has happened.

A fourth patient before the first pop is accepted and makes three patients
disappear. `Tallied` keeps track of how often that has happened: the patients
accepted are those popped, those still stored, and three for every time.

## Main definitions

* `Call`, `Tally.call`: A call, and the numbers of patients accepted and popped.
* `tally`: The queue and the numbers after any calls.
* `Agree`: The three functions tell the difference of the numbers.
* `Tallied`: Where the accepted patients are.

## Theorems

* `tallied_call`, `tallied_tally`: Every call keeps the books.
* `agree_iff`: When the functions agree with them.
* `observers_iff`: The same after any calls.
* `empty_queue_counted`: The queue that has just been made.
-/

namespace OsLabs

namespace Lab9

/-- One call of `queue_add`, with a patient or `NULL`, or of `queue_pop`. -/
inductive Call (α : Type*)
  | add (patient : Option α)
  | pop

/-- The queue, with the calls of `queue_add` that have returned 0 and those of
    `queue_pop` that have returned a patient. -/
structure Tally (α : Type*) where
  queue : PatientQueue α
  accepted : Nat
  popped : Nat

section Code

variable {α : Type*}

def Tally.call (t : Tally α) : Call α → Tally α
  | .add patient =>
    { t with
      queue := (queue_add t.queue patient).1
      accepted := if (queue_add t.queue patient).2 = 0 then t.accepted + 1 else t.accepted }
  | .pop =>
    { t with
      queue := (queue_pop t.queue).1
      popped := if (queue_pop t.queue).2.isSome then t.popped + 1 else t.popped }

/-- The calls made one after another, on a new queue. -/
def tally (calls : List (Call α)) : Tally α :=
  calls.foldl Tally.call { queue := queue_init, accepted := 0, popped := 0 }

/-- The three functions tell how many patients have been accepted and not
    popped. -/
structure Agree (t : Tally α) : Prop where
  count : queue_count t.queue = (t.accepted : Int) - t.popped
  empty : queue_is_empty t.queue = true ↔ (t.accepted : Int) - t.popped = 0
  full : queue_is_full t.queue = true ↔ (t.accepted : Int) - t.popped = CLINIC_QUEUE_SIZE

end Code

/-- The queue holds a list, and what was accepted and is neither in it nor
    popped was lost, three patients at a time. -/
def Tallied {α : Type*} (t : Tally α) : Prop :=
  ∃ h l laps, Holds t.queue h l ∧ t.accepted = t.popped + l.length + 3 * laps

section Proofs

variable {α : Type*} {t : Tally α}

theorem tallied_call (ht : Tallied t) (c : Call α) : Tallied (t.call c) := by
  rcases ht with ⟨h, l, laps, hq, hsum⟩
  cases c with
  | add patient =>
      cases patient with
      | none => exact ⟨h, l, laps, hq, hsum⟩
      | some p =>
          rcases holds_add_cases hq p with ⟨hzero, hnew⟩ | hrefused | ⟨hlen, hzero, hnew⟩
          · refine ⟨h, l ++ [p], laps, hnew, ?_⟩
            simp only [Tally.call, if_pos hzero, List.length_append, List.length_singleton]
            omega
          · refine ⟨h, l, laps, by simp only [Tally.call, hrefused]; exact hq, ?_⟩
            simp only [Tally.call, hrefused]
            exact hsum
          · -- The fourth patient makes the other three one.
            refine ⟨h, l.take 1, laps + 1, hnew, ?_⟩
            simp only [Tally.call, if_pos hzero, List.length_take, hlen]
            omega
  | pop =>
      cases l with
      | nil =>
          refine ⟨h, [], laps, by simp only [Tally.call, holds_pop_nil hq]; exact hq, ?_⟩
          simp only [Tally.call, holds_pop_nil hq]
          exact hsum
      | cons p l =>
          rcases holds_pop hq with ⟨hp, hnew⟩
          refine ⟨h + 1, l, laps, hnew, ?_⟩
          simp only [Tally.call, hp, Option.isSome_some, if_true]
          rw [List.length_cons] at hsum
          omega

theorem tallied_tally (calls : List (Call α)) : Tallied (tally calls) := by
  have hall : ∀ (calls : List (Call α)) (t : Tally α), Tallied t →
      Tallied (calls.foldl Tally.call t) := by
    intro calls
    induction calls with
    | nil => intro t ht; exact ht
    | cons c calls ih => intro t ht; exact ih _ (tallied_call ht c)
  exact hall calls _ ⟨0, [], 0, holds_init, rfl⟩

/-- Only one patient is counted as one. -/
theorem agree_iff (ht : Tallied t) : Agree t ↔ (t.accepted : Int) - t.popped = 1 := by
  rcases ht with ⟨h, l, laps, hq, hsum⟩
  have hcount := hq.queue_count_eq
  have hroom := hq.room
  have hempty : queue_is_empty t.queue = true ↔ l.length = 0 := by
    rw [hq.queue_is_empty_eq, List.isEmpty_iff, List.length_eq_zero_iff]
  have hfull : queue_is_full t.queue = true ↔ h ≠ 0 ∧ l.length = 2 := by
    rw [hq.queue_is_full_eq, decide_eq_true_eq]
  constructor
  · intro hagree
    have hn := hagree.count
    rw [hcount] at hn
    -- For no patient, two or three the count is two, three or two.
    split_ifs at hn <;> split_ifs at hroom <;> omega
  · intro hone
    have hlen : l.length = 1 := by omega
    refine ⟨?_, ?_, ?_⟩
    · rw [hcount, if_pos hlen, hone]
    · rw [hempty, hone]
      omega
    · have hsize : (CLINIC_QUEUE_SIZE : Int) = 3 := rfl
      rw [hfull, hone, hsize]
      omega

end Proofs

/-- After any calls of `queue_add` and `queue_pop` the three functions agree with
    what the calls have returned exactly if one more patient has been accepted
    than popped. -/
theorem observers_iff {α : Type*} (calls : List (Call α)) :
    Agree (tally calls) ↔ ((tally calls).accepted : Int) - (tally calls).popped = 1 :=
  agree_iff (tallied_tally calls)

/-- A queue that has just been made says that it has two patients, and one with
    two patients that it has three. -/
theorem empty_queue_counted :
    queue_count (tally ([] : List (Call Nat))).queue = 2 ∧
    queue_count (tally [Call.add (some 0), .add (some 1)]).queue = 3 ∧
    ¬ ∀ calls : List (Call Nat), Agree (tally calls) := by
  refine ⟨by decide, by decide, fun h => ?_⟩
  have hcount := (h []).count
  exact absurd hcount (by decide)

end Lab9

end OsLabs
