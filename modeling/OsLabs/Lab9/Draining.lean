import OsLabs.Lab9.Observers

/-!
# The Loop That Empties the Queue

The doctor takes the patients out of the queue one after another, until it finds
the queue empty, and puts them into an array of `CLINIC_QUEUE_SIZE` pointers. It
does not count how many there are. While it does so patients go on adding
themselves, and each place in the queue that it has made free can be taken
again. If four patients are taken in one go, the fourth is stored behind the
array.

Here the loop runs together with any number of patients. A step is one call on
the queue, which is done under its mutex, so that a run is an interleaving of
calls. The queue is in any state that calls can leave it in.

The loop goes well if the patients taken and those who wait are never more than
the array has room for. Before the first pop they cannot be, since a fourth
patient makes three disappear (`holds_add_cases`).

## Main definitions

* `Drain`, `DrainEvent`, `drainStep`: The loop and the patients.
* `Drain.treated`: The patients the second loop treats.
* `Drained`: No store is outside the array, and the patients popped are treated.
* `Fits`: A patient joins only while there is room in the array.
* `Going`: The loop has not stored anything outside.

## Theorems

* `going_or_overrun`: Every step goes on, or is the store behind the array.
* `fitting_step`: There is room after a step if there was and the step fits.
* `drained_iff`: The runs in which everything goes well.
* `drained_three`: Three patients.
* `fourth_store`: A run with a fourth.
-/

namespace OsLabs

namespace Lab9

inductive DrainPc
  | test
  | pop
  /-- The queue was found empty. -/
  | left
  /-- A store behind the array, after which nothing is defined. -/
  | overrun
  deriving DecidableEq

/-- The loop of `doctor_thread_routine`, with the values popped and the indices
    stored to. -/
structure Drain (α : Type*) where
  queue : PatientQueue α
  patients_to_treat : List (Option α)
  count : Nat
  i : Nat
  pc : DrainPc
  popped : List (Option α)
  stores : List Nat

inductive DrainEvent (α : Type*)
  /-- A patient calls `queue_add`. -/
  | add (patient : α)
  /-- The doctor calls `queue_is_empty`. -/
  | test
  /-- The doctor calls `queue_pop` and stores the result. -/
  | pop

section Code

variable {α : Type*}

/-- The loop before its first test. -/
def Drain.start (queue : PatientQueue α) : Drain α where
  queue := queue
  patients_to_treat := List.replicate CLINIC_QUEUE_SIZE none
  count := 0
  i := 0
  pc := .test
  popped := []
  stores := []

def drainStep (s : Drain α) : DrainEvent α → Option (Drain α)
  | .add patient =>
    if s.pc = .overrun then none
    else some { s with queue := (queue_add s.queue (some patient)).1 }
  | .test =>
    if s.pc = .test then
      some { s with pc := if queue_is_empty s.queue then .left else .pop }
    else none
  | .pop =>
    if s.pc = .pop then
      let patient := (queue_pop s.queue).2
      some
        { queue := (queue_pop s.queue).1
          patients_to_treat := s.patients_to_treat.set s.i patient
          count := if patient.isSome then s.count + 1 else s.count
          i := s.i + 1
          pc := if s.i < CLINIC_QUEUE_SIZE then .test else .overrun
          popped := s.popped ++ [patient]
          stores := s.stores ++ [s.i] }
    else none

/-- The patients treated afterwards, those below `count` that are not `NULL`. -/
def Drain.treated (s : Drain α) : List α := (s.patients_to_treat.take s.count).filterMap id

/-- All stores are inside the array, and the patients treated are those popped. -/
structure Drained (s : Drain α) : Prop where
  inside : ∀ k ∈ s.stores, k < CLINIC_QUEUE_SIZE
  treated : s.treated = s.popped.filterMap id

/-- Once the doctor has taken a patient, another one is added only while those
    taken and those waiting are fewer than `CLINIC_QUEUE_SIZE`. -/
def Fits (s : Drain α) : DrainEvent α → Prop
  | .add _ => s.pc = .left ∨ s.i = 0 ∨ queue_is_full s.queue = true ∨
      s.i + (stored s.queue).length < CLINIC_QUEUE_SIZE
  | _ => True

instance (s : Drain α) : ∀ e, Decidable (Fits s e)
  | .add _ => inferInstanceAs (Decidable (_ ∨ _ ∨ _ ∨ _))
  | .test => isTrue trivial
  | .pop => isTrue trivial

end Code

/-- The patients taken so far stand in the array, one after another, and the
    queue holds a list, which is not empty where the doctor pops. -/
structure Going {α : Type*} (s : Drain α) (h : Nat) (l taken : List α) : Prop where
  holds : Holds s.queue h l
  begun : s.i ≠ 0 → h ≠ 0
  popped_eq : s.popped = taken.map some
  i_eq : s.i = taken.length
  count_eq : s.count = taken.length
  array_eq : s.patients_to_treat
    = taken.map some ++ List.replicate (CLINIC_QUEUE_SIZE - taken.length) none
  stores_eq : s.stores = List.range taken.length
  le : taken.length ≤ CLINIC_QUEUE_SIZE
  more : s.pc = .pop → l ≠ []

/-- The loop goes on, or has just stored behind the array. -/
def GoingOr {α : Type*} (s : Drain α) : Prop :=
  s.pc ≠ .overrun ∧ (∃ h l taken, Going s h l taken) ∨
    s.pc = .overrun ∧ CLINIC_QUEUE_SIZE ∈ s.stores

/-- Those taken and those waiting fit into the array, or the loop is over. -/
def Fitting {α : Type*} (s : Drain α) : Prop :=
  s.pc = .left ∨ s.pc ≠ .overrun ∧ s.i + (stored s.queue).length ≤ CLINIC_QUEUE_SIZE

section Proofs

variable {α : Type*} {s s' : Drain α} {e : DrainEvent α}

theorem going_start {queue : PatientQueue α} {h : Nat} {l : List α} (hq : Holds queue h l) :
    Going (Drain.start queue) h l [] where
  holds := hq
  begun hi := absurd rfl hi
  popped_eq := rfl
  i_eq := rfl
  count_eq := rfl
  array_eq := rfl
  stores_eq := rfl
  le := Nat.zero_le _
  more hpc := by cases hpc

theorem drainStep_add {p : α} (hstep : drainStep s (.add p) = some s') :
    s.pc ≠ .overrun ∧ s' = { s with queue := (queue_add s.queue (some p)).1 } := by
  simp only [drainStep] at hstep
  split_ifs at hstep with hpc
  exact ⟨hpc, (Option.some.inj hstep).symm⟩

theorem drainStep_test (hstep : drainStep s .test = some s') :
    s.pc = .test ∧ s' = { s with pc := if queue_is_empty s.queue then .left else .pop } := by
  simp only [drainStep] at hstep
  by_cases hpc : s.pc = .test
  · rw [if_pos hpc] at hstep
    exact ⟨hpc, (Option.some.inj hstep).symm⟩
  · rw [if_neg hpc] at hstep
    cases hstep

theorem drainStep_pop (hstep : drainStep s .pop = some s') :
    s.pc = .pop ∧ s' =
      { queue := (queue_pop s.queue).1
        patients_to_treat := s.patients_to_treat.set s.i (queue_pop s.queue).2
        count := if (queue_pop s.queue).2.isSome then s.count + 1 else s.count
        i := s.i + 1
        pc := if s.i < CLINIC_QUEUE_SIZE then .test else .overrun
        popped := s.popped ++ [(queue_pop s.queue).2]
        stores := s.stores ++ [s.i] } := by
  simp only [drainStep] at hstep
  by_cases hpc : s.pc = .pop
  · rw [if_pos hpc] at hstep
    exact ⟨hpc, (Option.some.inj hstep).symm⟩
  · rw [if_neg hpc] at hstep
    cases hstep

/-- After a store behind the array nothing is defined. -/
theorem drainStep_overrun (hover : s.pc = .overrun) (e : DrainEvent α) : drainStep s e = none := by
  cases e with
  | add p => exact if_pos hover
  | test => exact if_neg (by rw [hover]; decide)
  | pop => exact if_neg (by rw [hover]; decide)

/-- The next patient is stored behind those taken. -/
theorem going_pop {h : Nat} {p : α} {l taken : List α} (hs : Going s h (p :: l) taken)
    (hlt : s.i < CLINIC_QUEUE_SIZE) (hstep : drainStep s .pop = some s') :
    s'.pc = .test ∧ s'.i = s.i + 1 ∧ Going s' (h + 1) l (taken ++ [p]) := by
  rcases holds_pop hs.holds with ⟨hp, hnew⟩
  rcases drainStep_pop hstep with ⟨_, rfl⟩
  have hi := hs.i_eq
  have hlen : taken.length < CLINIC_QUEUE_SIZE := by omega
  simp only [hp, Option.isSome_some, if_true, if_pos hlt]
  have htaken : (taken ++ [p]).length = taken.length + 1 := List.length_append
  refine ⟨trivial, trivial, hnew, fun _ => Nat.succ_ne_zero h, ?_, ?_, ?_, ?_, ?_, ?_, fun hpop => ?_⟩
  · simp only [hs.popped_eq, List.map_append, List.map_singleton]
  · simp only [htaken, hi]
  · simp only [htaken, hs.count_eq]
  · -- The store replaces the first `NULL` of those left.
    have hrest : CLINIC_QUEUE_SIZE - taken.length = CLINIC_QUEUE_SIZE - (taken.length + 1) + 1 := by
      omega
    simp only [hs.array_eq, hi, htaken]
    rw [List.set_append_right _ _ (by rw [List.length_map]), List.length_map, Nat.sub_self, hrest,
      List.replicate_succ, List.set_cons_zero, List.map_append, List.append_assoc]
    rfl
  · simp only [hs.stores_eq, htaken, hi, List.range_succ]
  · omega
  · cases hpop

/-- A patient changes the queue only, and does not empty it. -/
theorem going_add {h : Nat} {l taken : List α} {p : α} (hs : Going s h l taken)
    (hstep : drainStep s (.add p) = some s') :
    s'.pc = s.pc ∧ s'.i = s.i ∧ ∃ l', Going s' h l' taken := by
  rcases drainStep_add hstep with ⟨_, rfl⟩
  refine ⟨rfl, rfl, ?_⟩
  -- The array and what is written down beside it are left alone.
  have hkeep : ∀ l', Holds (queue_add s.queue (some p)).1 h l' → (s.pc = .pop → l' ≠ []) →
      Going { s with queue := (queue_add s.queue (some p)).1 } h l' taken :=
    fun l' hq hne => ⟨hq, hs.begun, hs.popped_eq, hs.i_eq, hs.count_eq, hs.array_eq, hs.stores_eq,
      hs.le, hne⟩
  rcases holds_add_cases hs.holds p with ⟨_, hnew⟩ | hrefused | ⟨hlen, _, hnew⟩
  · exact ⟨l ++ [p], hkeep _ hnew fun _ => by simp⟩
  · have hsame : Holds (queue_add s.queue (some p)).1 h l := by rw [hrefused]; exact hs.holds
    exact ⟨l, hkeep l hsame hs.more⟩
  · refine ⟨l.take 1, hkeep _ hnew fun _ hnil => ?_⟩
    have hone := congrArg List.length hnil
    rw [List.length_take, hlen] at hone
    cases hone

/-- A step goes on or stores behind the array. -/
theorem going_or_overrun (hs : GoingOr s) (hstep : drainStep s e = some s') : GoingOr s' := by
  rcases hs with ⟨hpc, h, l, taken, hs⟩ | ⟨hover, hmem⟩
  · cases e with
    | add p =>
        rcases going_add hs hstep with ⟨hsame, _, l', hnew⟩
        exact Or.inl ⟨by rw [hsame]; exact hpc, h, l', taken, hnew⟩
    | test =>
        rcases drainStep_test hstep with ⟨_, rfl⟩
        refine Or.inl ⟨?_, h, l, taken, hs.holds, hs.begun, hs.popped_eq, hs.i_eq, hs.count_eq,
          hs.array_eq, hs.stores_eq, hs.le, ?_⟩
        · simp only []
          split_ifs <;> decide
        · -- The doctor goes on to pop where the queue is not empty.
          simp only [hs.holds.queue_is_empty_eq]
          intro hpop hnil
          subst hnil
          cases hpop
    | pop =>
        rcases drainStep_pop hstep with ⟨hpop, hs'⟩
        rcases List.exists_cons_of_ne_nil (hs.more hpop) with ⟨p, l', rfl⟩
        by_cases hlt : s.i < CLINIC_QUEUE_SIZE
        · rcases going_pop hs hlt hstep with ⟨htest, _, hnew⟩
          exact Or.inl ⟨by rw [htest]; decide, h + 1, l', _, hnew⟩
        · -- All the array is used.
          have hle := hs.le
          have hi := hs.i_eq
          have hfull : s.i = CLINIC_QUEUE_SIZE := by omega
          subst hs'
          refine Or.inr ⟨if_neg hlt, List.mem_append_right _ ?_⟩
          rw [hfull]
          exact List.mem_cons_self
  · rw [drainStep_overrun hover e] at hstep
    cases hstep

/-- There is room after a step exactly if there was and the step fits. -/
theorem fitting_step (hs : GoingOr s) (hstep : drainStep s e = some s') :
    Fitting s' ↔ Fitting s ∧ Fits s e := by
  have hsize : CLINIC_QUEUE_SIZE = 3 := rfl
  rcases hs with ⟨hpc, h, l, taken, hs⟩ | ⟨hover, _⟩
  · have hstored := hs.holds.stored_eq
    have hi := hs.i_eq
    have hle := hs.le
    cases e with
    | add p =>
        have hsame : s'.pc = s.pc ∧ s'.i = s.i := ⟨(going_add hs hstep).1, (going_add hs hstep).2.1⟩
        have hqueue : s'.queue = (queue_add s.queue (some p)).1 := by
          rw [(drainStep_add hstep).2]
        have hroom := hs.holds.room
        have hbegun := hs.begun
        have hfull := hs.holds.queue_is_full_eq
        unfold Fitting Fits
        rw [hsame.1, hsame.2, hqueue, hstored, hfull, decide_eq_true_eq]
        by_cases hleft : s.pc = .left
        · simp only [hleft, true_or, and_self]
        · simp only [hleft, false_or, ne_eq, hpc, not_false_eq_true, true_and]
          rcases holds_add_cases hs.holds p with ⟨hzero, hnew⟩ | hrefused | ⟨hlen, _, hnew⟩
          · -- The patient is added, so that the queue was not full.
            have hnot : ¬ (h ≠ 0 ∧ l.length = 2) := by
              rintro ⟨hh, hlen⟩
              rw [holds_add_full hs.holds p hh hlen] at hzero
              cases hzero
            have hmax := hnew.room
            rw [List.length_append, List.length_singleton] at hmax
            rw [hnew.stored_eq, List.length_append, List.length_singleton]
            split_ifs at hmax <;> omega
          · rw [hrefused, hstored]
            -- A refused patient is refused because the queue is full.
            have hboth : h ≠ 0 ∧ l.length = 2 := by
              rw [← decide_eq_true_eq (p := h ≠ 0 ∧ l.length = 2), ← hfull]
              by_contra hnot
              rw [queue_add, Option.isNone_some, if_neg Bool.false_ne_true, if_neg hnot] at hrefused
              have hres := congrArg Prod.snd hrefused
              cases hres
            omega
          · rw [hnew.stored_eq, List.length_take, hlen]
            split_ifs at hroom with hh
            · omega
            · omega
    | test =>
        have hmore : queue_is_empty s.queue = l.isEmpty := hs.holds.queue_is_empty_eq
        rcases drainStep_test hstep with ⟨htest, rfl⟩
        unfold Fitting Fits
        rw [htest]
        cases l with
        | nil =>
            -- Nobody waits, and the array has room for those taken.
            simp only [hmore, List.isEmpty_nil, if_true, true_or, hstored, List.length_nil,
              reduceCtorEq, false_or, ne_eq, not_false_eq_true, true_and, and_true, true_iff]
            omega
        | cons p l =>
            simp only [hmore, List.isEmpty_cons, Bool.false_eq_true, if_false, reduceCtorEq,
              false_or, ne_eq, not_false_eq_true, true_and, and_true]
    | pop =>
        rcases drainStep_pop hstep with ⟨hpop, hs'⟩
        rcases List.exists_cons_of_ne_nil (hs.more hpop) with ⟨p, l', rfl⟩
        unfold Fitting Fits
        rw [hstored, hpop]
        by_cases hlt : s.i < CLINIC_QUEUE_SIZE
        · rcases going_pop hs hlt hstep with ⟨htest, hnext, hnew⟩
          rw [htest, hnext, hnew.holds.stored_eq]
          simp only [reduceCtorEq, false_or, ne_eq, not_false_eq_true, true_and, and_true,
            List.length_cons]
          omega
        · -- The array is full and somebody was waiting.
          subst hs'
          simp only [if_neg hlt, reduceCtorEq, false_or, ne_eq, not_true_eq_false, false_and,
            false_iff, not_false_eq_true, true_and, and_true, List.length_cons]
          omega
  · rw [drainStep_overrun hover e] at hstep
    cases hstep

/-- As long as the loop goes on everything is in place. -/
theorem Going.drained {h : Nat} {l taken : List α} (hs : Going s h l taken) : Drained s where
  inside k hk := by
    rw [hs.stores_eq, List.mem_range] at hk
    exact Nat.lt_of_lt_of_le hk hs.le
  treated := by
    have hlen : (taken.map some).length = s.count := by rw [List.length_map, hs.count_eq]
    rw [Drain.treated, hs.array_eq, hs.popped_eq, List.take_left' hlen]

end Proofs

/-- In every run of the loop with any patients, on a queue in any state, the
    stores are inside the array and the patients popped are treated, if no
    patient joins for whom there is no room in the array. In a run to its end
    they are so only then. -/
theorem drained_iff {α : Type*} (calls : List (Call α)) (events : List (DrainEvent α))
    (t : Drain α) (hrun : run drainStep (Drain.start (tally calls).queue) events = some t) :
    (Meets drainStep Fits (Drain.start (tally calls).queue) events → Drained t) ∧
    (t.pc = .left ∨ t.pc = .overrun →
      (Drained t ↔ Meets drainStep Fits (Drain.start (tally calls).queue) events)) := by
  rcases tallied_tally calls with ⟨h, l, _, hq, _⟩
  have hstart : GoingOr (Drain.start (tally calls).queue) :=
    Or.inl ⟨DrainPc.noConfusion, h, l, [], going_start hq⟩
  have hroom : Fitting (Drain.start (tally calls).queue) := by
    have hmax := hq.room
    have hsize : CLINIC_QUEUE_SIZE = 3 := rfl
    refine Or.inr ⟨DrainPc.noConfusion, ?_⟩
    change 0 + (stored (tally calls).queue).length ≤ CLINIC_QUEUE_SIZE
    rw [hq.stored_eq]
    split_ifs at hmax <;> omega
  have hend : GoingOr t := (reachable_of_run hrun).invariant hstart
    fun _ _ _ hv _ hstep => going_or_overrun hv hstep
  have hiff : Fitting t ↔ Meets drainStep Fits (Drain.start (tally calls).queue) events :=
    (run_iff (fun _ _ _ hv hstep => going_or_overrun hv hstep)
      (fun _ _ _ hv hstep => fitting_step hv hstep) events hstart hrun).trans (and_iff_right hroom)
  rw [← hiff]
  rcases hend with ⟨hpc, _, _, _, hgoing⟩ | ⟨hover, hmem⟩
  · refine ⟨fun _ => hgoing.drained, ?_⟩
    rintro (hleft | hover)
    · exact iff_of_true hgoing.drained (Or.inl hleft)
    · exact absurd hover hpc
  · -- The store behind the array is one of the stores.
    have hnot : ¬ Fitting t := by
      rintro (hleft | ⟨hne, _⟩)
      · rw [hover] at hleft
        cases hleft
      · exact hne hover
    refine ⟨fun hfit => absurd hfit hnot, fun _ => iff_of_false (fun hd => ?_) hnot⟩
    exact Nat.lt_irrefl _ (hd.inside _ hmem)

/-- Two patients wait, and a third one comes when one has been taken. -/
theorem drained_three : ∃ t, run drainStep
      (Drain.start (tally [Call.add (some 1), .add (some 2)]).queue)
      [.test, .pop, .add 3, .test, .pop, .test, .pop, .test] = some t ∧
    t.pc = .left ∧ t.treated = [1, 2, 3] ∧ Drained t := by
  have hend : (run drainStep (Drain.start (tally [Call.add (some 1), .add (some 2)]).queue)
      [.test, .pop, .add 3, .test, .pop, .test, .pop, .test]).map (fun t => (t.pc, t.treated))
        = some (.left, [1, 2, 3]) := by decide
  rcases Option.map_eq_some_iff.mp hend with ⟨t, hrun, ht⟩
  rw [Prod.mk.injEq] at ht
  exact ⟨t, hrun, ht.1, ht.2, (drained_iff _ _ t hrun).1 (by decide)⟩

/-- Two more come, and the fourth patient is stored behind the array. -/
theorem fourth_store : ∃ t, run drainStep
      (Drain.start (tally [Call.add (some 1), .add (some 2)]).queue)
      [.test, .pop, .add 3, .test, .pop, .add 4, .test, .pop, .test, .pop] = some t ∧
    t.stores = [0, 1, 2, 3] ∧ ¬ Drained t := by
  have hend : (run drainStep (Drain.start (tally [Call.add (some 1), .add (some 2)]).queue)
      [.test, .pop, .add 3, .test, .pop, .add 4, .test, .pop, .test, .pop]).map
        (fun t => t.stores) = some [0, 1, 2, 3] := by decide
  rcases Option.map_eq_some_iff.mp hend with ⟨t, hrun, hstores⟩
  refine ⟨t, hrun, hstores, fun hd => ?_⟩
  exact absurd (hd.inside 3 (by rw [hstores]; decide)) (by decide)

end Lab9

end OsLabs
