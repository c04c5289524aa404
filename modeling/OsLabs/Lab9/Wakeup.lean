import OsLabs.Lab9.Deliveries
import OsLabs.Lab9.Roster

/-!
# The Wake-up Call

The doctor goes to sleep without looking whether there is anything to do. It
tests what it sleeps for only after it has been woken, so a signal sent while it
was awake is lost, and what the signal was about stays undone until the next
one. Patients and pharmacists do not know: a patient signals when it is the one
that fills the queue, and a pharmacist when it comes forward.

Between the end of a round and the wait there are several places, `resting`
ones. The doctor comes to wait with its wake-up call due exactly when the call
becomes due at one of them. It can be due already as the doctor comes there,
from what it has left behind in the cabinet; and a patient or a pharmacist can
make it due while the doctor is there. `Heard` says of a step that it does
neither.

## Main definitions

* `WakingDue`: What the doctor tests for after it has been woken.
* `DoctorPc.resting`: The places between the end of a round and the wait.
* `DoctorPc.leaves`: The medicine left behind at the end of a round.
* `Lost`: The call is due, and the doctor is on its way to wait for it.
* `Heard`: A step does not make the call due for a resting doctor.

## Theorems

* `resting_doctor`: How the doctor comes to rest, and what it leaves alone then.
* `leaves_doctor`: The end of a round.
* `neverLost_iff_heard`: One step.
* `never_lost`: Any run.
* `never_lost_run`: A round of the doctor, up to where it waits again.
* `second_patient_unheard`: A call that comes too early.
-/

namespace OsLabs

namespace Lab9

/-- The places of the doctor between the end of a round and the wait. -/
def DoctorPc.resting {patients : Nat} : DoctorPc patients → Bool
  | .treat _ => true
  | .treating _ _ => true
  | .outer => true
  | .lock => true
  | .test => true
  | .sleep => true
  | .wait => true
  | _ => false

/-- The medicine there is after the step, when the step is the last one of a
    round that matters for it. -/
def DoctorPc.leaves {patients : Nat} (medicine_count : Int) : DoctorPc patients → Option Int
  | .lock_treat batch => if patientCount batch > 0 then none else some medicine_count
  | .consume _ => some (medicine_count - MIN_MEDICINE_REQUIRED)
  | .refill => some MEDICINE_CABINET_CAPACITY
  | _ => none

section Calls

variable {patients pharmacists : Nat} {s s' : State patients pharmacists}

/-- What the doctor tests for after it has been woken: the queue is full and
    there is enough medicine, or there is not and a pharmacist waits. -/
def WakingDue (s : State patients pharmacists) : Prop :=
  queue_count s.patient_queue = CLINIC_QUEUE_SIZE ∧ s.medicine_count ≥ MIN_MEDICINE_REQUIRED ∨
    s.waiting_pharmacists > 0 ∧ s.medicine_count < MIN_MEDICINE_REQUIRED

instance (s : State patients pharmacists) : Decidable (WakingDue s) :=
  inferInstanceAs (Decidable (_ ∧ _ ∨ _ ∧ _))

/-- The doctor blocks in `pthread_cond_wait` only when its call is not due, or
    when everything is over. -/
def Attentive (s : State patients pharmacists) : Prop :=
  s.doctor = .wait → s.all_patients_done = false → ¬ WakingDue s

/-- The call is due, and the doctor is on its way to wait for it. -/
structure Lost (s : State patients pharmacists) : Prop where
  resting : s.doctor.resting = true
  due : WakingDue s
  open_ : s.all_patients_done = false

/-- The step does not make the call due for a resting doctor. The doctor ends
    its rounds only when the call is not due with what is left; while it rests
    nobody fills the queue where there is enough medicine, and no pharmacist
    comes forward. -/
def Heard (s : State patients pharmacists) : Thread patients pharmacists → Prop
  | .doctor => s.all_patients_done = false →
      ∀ left ∈ s.doctor.leaves s.medicine_count, ¬ WakingDue { s with medicine_count := left }
  | .patient p => s.all_patients_done = false → s.doctor.resting = true → s.patient p = .add →
      queue_count (queue_add s.patient_queue (some p)).1 = CLINIC_QUEUE_SIZE →
      s.medicine_count < MIN_MEDICINE_REQUIRED
  | .pharmacist j => s.all_patients_done = false → s.doctor.resting = true → ¬ ComesForward s j
  | .main => True

/-- The step does not lead to where a call is lost. -/
def NeverLost (s : State patients pharmacists) (t : Thread patients pharmacists) : Prop :=
  ∀ s', step s t = some s' → ¬ Lost s'

/-- No call is lost, and the doctor leaves its inner loop in waking mode 0 only
    when everything is over. -/
structure Rested (s : State patients pharmacists) : Prop where
  heard : ¬ Lost s
  mode : ∀ waking_mode, s.doctor = .inner waking_mode → waking_mode ≤ 2
  finished : ∀ waking_mode, s.doctor = .unlock waking_mode →
    waking_mode = 1 ∨ waking_mode = 2 ∨ s.all_patients_done = true

/-- The call depends on the queue, the medicine and the pharmacists. -/
theorem WakingDue.congr (h : WakingDue s) (hqueue : s'.patient_queue = s.patient_queue)
    (hmed : s'.medicine_count = s.medicine_count)
    (hwaiting : s'.waiting_pharmacists = s.waiting_pharmacists) : WakingDue s' := by
  unfold WakingDue at h ⊢
  rw [hqueue, hmed, hwaiting]
  exact h

/-- A doctor that rests after a step has rested before, and has left everything
    that matters alone; or it has just ended a round; or it has left the inner
    loop because everything is over. -/
theorem resting_doctor (h : Rested s) (hstep : doctor_thread_routine s = some s')
    (hrest : s'.doctor.resting = true) (hopen : s'.all_patients_done = false) :
    s'.patient_queue = s.patient_queue ∧ s'.waiting_pharmacists = s.waiting_pharmacists ∧
      (s.doctor.resting = true ∧ s'.medicine_count = s.medicine_count ∨
        s.doctor.leaves s.medicine_count = some s'.medicine_count) := by
  cases doctor_moves hstep with
  | lock_treat_nobody hpc hfree hcount =>
      rw [hpc]
      exact ⟨rfl, rfl, Or.inr (by simp only [DoctorPc.leaves, if_neg hcount])⟩
  | consume hpc | refill hpc =>
      rw [hpc]
      exact ⟨rfl, rfl, Or.inr rfl⟩
  -- Neither waking mode leads back to the outer loop, so everything is over.
  | unlock hpc hone htwo =>
      rcases h.finished _ hpc with hmode | hmode | hdone
      · exact absurd hmode hone
      · exact absurd hmode htwo
      · rw [hdone] at hopen
        cases hopen
  | outer hpc | lock hpc | test hpc | sleep hpc | treat_done hpc | treat_null hpc | treat hpc
  | treating hpc =>
      rw [hpc]
      exact ⟨rfl, rfl, Or.inl ⟨rfl, rfl⟩⟩
  | _ => cases hrest

/-- The step with which a round ends leaves the doctor resting, with the
    medicine that is left. -/
theorem leaves_doctor {left : Int} (hstep : doctor_thread_routine s = some s')
    (hleft : s.doctor.leaves s.medicine_count = some left) :
    s'.doctor.resting = true ∧ s'.medicine_count = left ∧
      s'.patient_queue = s.patient_queue ∧ s'.waiting_pharmacists = s.waiting_pharmacists := by
  cases doctor_moves hstep with
  | lock_treat hpc hfree hcount =>
      rw [hpc, DoctorPc.leaves, if_pos hcount] at hleft
      cases hleft
  | lock_treat_nobody hpc hfree hcount =>
      rw [hpc, DoctorPc.leaves, if_neg hcount] at hleft
      exact ⟨rfl, Option.some.inj hleft, rfl, rfl⟩
  | consume hpc | refill hpc =>
      rw [hpc] at hleft
      exact ⟨rfl, Option.some.inj hleft, rfl, rfl⟩
  | _ hpc =>
      rw [hpc] at hleft
      cases hleft

/-- The modes of the inner loop are 0, 1 and 2, and it is left in mode 0 only
    when everything is over. -/
theorem modes_doctor (h : Rested s) (hstep : doctor_thread_routine s = some s') :
    (∀ waking_mode, s'.doctor = .inner waking_mode → waking_mode ≤ 2) ∧
      ∀ waking_mode, s'.doctor = .unlock waking_mode →
        waking_mode = 1 ∨ waking_mode = 2 ∨ s'.all_patients_done = true := by
  cases doctor_moves hstep with
  | count hpc =>
      refine ⟨fun mode hmode => ?_, fun mode hmode => by cases hmode⟩
      rw [← DoctorPc.inner.inj hmode, wakingMode]
      split_ifs <;> omega
  | relock hpc =>
      refine ⟨fun mode hmode => ?_, fun mode hmode => by cases hmode⟩
      rw [← DoctorPc.inner.inj hmode]
      exact Nat.zero_le 2
  | @inner_left waking_mode hpc hend =>
      have hle := h.mode waking_mode hpc
      refine ⟨fun mode hmode => (by cases hmode), fun mode hmode => ?_⟩
      rw [← DoctorPc.unlock.inj hmode]
      -- In mode 0 the loop is left because of the flag.
      by_cases hzero : waking_mode = 0
      · exact Or.inr (Or.inr (hend hzero))
      · omega
  | test_ended hpc hdone =>
      exact ⟨fun mode hmode => (by cases hmode), fun mode hmode => Or.inr (Or.inr hdone)⟩
  | _ => exact ⟨fun mode hmode => (by cases hmode), fun mode hmode => by cases hmode⟩

/-- The flag is set once and for all. -/
theorem open_of_step {t : Thread patients pharmacists} (hstep : step s t = some s')
    (hopen : s'.all_patients_done = false) : s.all_patients_done = false := by
  cases t with
  | doctor => rw [← (doctor_frame hstep).2.2.2]; exact hopen
  | patient p => rw [← (patient_frame hstep).2.2.2.2.2.1]; exact hopen
  | pharmacist j => rw [← (pharmacist_frame hstep).2.2.2.2.2.2.2]; exact hopen
  | main =>
      cases main_moves hstep with
      | set_done hpc => cases hopen
      | _ => exact hopen

/-- From a state in which no call is lost, a step loses none exactly when it is
    heard. -/
theorem neverLost_iff_heard (h : Rested s) {t : Thread patients pharmacists}
    (hstep : step s t = some s') : NeverLost s t ↔ Heard s t := by
  have hnext : NeverLost s t ↔ ¬ Lost s' := by
    refine ⟨fun hall => hall s' hstep, fun hs' u hu => ?_⟩
    rw [hstep, Option.some.injEq] at hu
    rw [← hu]
    exact hs'
  rw [hnext]
  cases t with
  | doctor =>
      rcases doctor_frame hstep with ⟨_, _, _, hdone⟩
      constructor
      · intro hnone hopen left hleft hdue
        rcases leaves_doctor hstep hleft with ⟨hrest, hmed, hqueue, hwaiting⟩
        refine hnone ⟨hrest, hdue.congr hqueue hmed hwaiting, hdone.trans hopen⟩
      · intro hok hlost
        have hopen : s.all_patients_done = false := hdone.symm.trans hlost.open_
        rcases resting_doctor h hstep hlost.resting hlost.open_ with
          ⟨hqueue, hwaiting, ⟨hrest, hmed⟩ | hleft⟩
        · exact h.heard
            ⟨hrest, hlost.due.congr hqueue.symm hmed.symm hwaiting.symm, hopen⟩
        · exact hok hopen _ hleft (hlost.due.congr hqueue.symm rfl hwaiting.symm)
  | patient p =>
      rcases patient_frame hstep with ⟨_, _, hdoctor, _, _, hdone, hmed, _⟩
      rcases counted_frame (fun _ => by simp) hstep with ⟨hwaiting, _⟩
      constructor
      · intro hnone hopen hrest hpc hfull
        by_contra henough
        rcases patient_queue_step hstep with ⟨hne, _⟩ | ⟨_, hqueue, _⟩
        · exact hne hpc
        · refine hnone ⟨by rw [hdoctor]; exact hrest, Or.inl ⟨?_, ?_⟩, hdone.trans hopen⟩
          · rw [hqueue]
            exact hfull
          · rw [hmed]
            omega
      · intro hok hlost
        have hopen : s.all_patients_done = false := hdone.symm.trans hlost.open_
        have hrest : s.doctor.resting = true := by rw [← hdoctor]; exact hlost.resting
        rcases patient_queue_step hstep with ⟨_, hqueue⟩ | ⟨hpc, hqueue, _⟩
        · exact h.heard
            ⟨hrest, hlost.due.congr hqueue.symm hmed.symm hwaiting.symm, hopen⟩
        · -- A patient makes the call due by filling the queue, or it was due before.
          rcases hlost.due with ⟨hfull, henough⟩ | hfew
          · rw [hqueue] at hfull
            have hlow := hok hopen hrest hpc hfull
            rw [hmed] at henough
            omega
          · rw [hwaiting, hmed] at hfew
            exact h.heard ⟨hrest, Or.inr hfew, hopen⟩
  | pharmacist j =>
      rcases pharmacist_frame hstep with ⟨_, hdoctor, _, _, _, hqueue, hmed, hdone⟩
      constructor
      · intro hnone hopen hrest hforward
        rcases pharmacist_forward hstep with ⟨_, hcount, _⟩ | ⟨hnot, _⟩
        · refine hnone ⟨by rw [hdoctor]; exact hrest, Or.inr ⟨?_, ?_⟩, hdone.trans hopen⟩
          · omega
          · rw [hmed]
            exact hforward.1
        · exact hnot hforward
      · intro hok hlost
        have hopen : s.all_patients_done = false := hdone.symm.trans hlost.open_
        have hrest : s.doctor.resting = true := by rw [← hdoctor]; exact hlost.resting
        rcases pharmacist_forward hstep with ⟨hforward, _⟩ | ⟨_, hwaiting, _⟩
        · exact hok hopen hrest hforward
        · exact h.heard
            ⟨hrest, hlost.due.congr hqueue.symm hmed.symm hwaiting.symm, hopen⟩
  | main =>
      rcases main_frame hstep with ⟨hdoctor, _, _, _, hqueue, hmed⟩
      rcases counted_frame (fun _ => by simp) hstep with ⟨hwaiting, _⟩
      refine iff_of_true (fun hlost => ?_) trivial
      exact h.heard ⟨by rw [← hdoctor]; exact hlost.resting,
        hlost.due.congr hqueue.symm hmed.symm hwaiting.symm, open_of_step hstep hlost.open_⟩

theorem rested_step (h : Rested s) {t : Thread patients pharmacists} (hok : NeverLost s t)
    (hstep : step s t = some s') : Rested s' := by
  cases t with
  | doctor =>
      rcases modes_doctor h hstep with ⟨hmode, hfinished⟩
      exact ⟨hok s' hstep, hmode, hfinished⟩
  | patient p =>
      rcases patient_frame hstep with ⟨_, _, hdoctor, _, _, hdone, _⟩
      exact ⟨hok s' hstep, by rw [hdoctor]; exact h.mode, by rw [hdoctor, hdone]; exact h.finished⟩
  | pharmacist j =>
      rcases pharmacist_frame hstep with ⟨_, hdoctor, _, _, _, _, _, hdone⟩
      exact ⟨hok s' hstep, by rw [hdoctor]; exact h.mode, by rw [hdoctor, hdone]; exact h.finished⟩
  | main =>
      have hdoctor := (main_frame hstep).1
      refine ⟨hok s' hstep, by rw [hdoctor]; exact h.mode, fun mode hmode => ?_⟩
      rw [hdoctor] at hmode
      rcases h.finished mode hmode with hone | htwo | hdone
      · exact Or.inl hone
      · exact Or.inr (Or.inl htwo)
      · refine Or.inr (Or.inr ?_)
        cases hdone' : s'.all_patients_done with
        | true => rfl
        | false =>
            rw [open_of_step hstep hdone'] at hdone
            cases hdone

/-- The clinic opens with a doctor who is about to rest, with nobody there. -/
theorem rested_init (medicine_status : MedicineStatus) :
    Rested (clinic_init patients pharmacists medicine_status) where
  heard := by
    intro hlost
    rcases hlost.due with ⟨hfull, _⟩ | ⟨hwaiting, _⟩
    · cases holds_init.queue_count_eq_iff.mp hfull
    · cases hwaiting
  mode := fun _ hmode => by cases hmode
  finished := fun _ hmode => by cases hmode

/-- Where no call is lost the doctor blocks only when there is none. -/
theorem Rested.attentive (h : Rested s) : Attentive s :=
  fun hwait hopen hdue => h.heard ⟨by rw [hwait]; rfl, hdue, hopen⟩

end Calls

/-- In every state that steps reach which are all heard, the doctor does not
    block while its call is due; and the steps of a run are all heard exactly
    when the doctor is never on its way to do so. The second part is about
    `NeverLost`: in a run with a step that is not heard the doctor has been on its
    way to block, but need not have come there. -/
theorem never_lost (patients pharmacists : Nat) (medicine_status : MedicineStatus) :
    (∀ s, Reaches step Heard (clinic_init patients pharmacists medicine_status) s →
      Attentive s) ∧
    ∀ threads, Meets step NeverLost (clinic_init patients pharmacists medicine_status) threads ↔
      Meets step Heard (clinic_init patients pharmacists medicine_status) threads := by
  have hiff : ∀ (v : State patients pharmacists) t w, Rested v → step v t = some w →
      (NeverLost v t ↔ Heard v t) := fun v t w hv hstep => neverLost_iff_heard hv hstep
  have hinv : ∀ (v : State patients pharmacists) t w, Rested v → NeverLost v t →
      step v t = some w → Rested w := fun v t w hv hok hstep => rested_step hv hok hstep
  constructor
  · intro s hreach
    have hrested : Rested s := hreach.invariant (rested_init medicine_status)
      fun v t w hv hok hstep => hinv v t w hv ((hiff v t w hv hstep).mpr hok) hstep
    exact hrested.attentive
  · intro threads
    exact meets_congr hiff hinv threads (rested_init medicine_status)

instance {patients pharmacists : Nat} (s : State patients pharmacists) : ∀ t, Decidable (Heard s t)
  | .doctor => inferInstanceAs (Decidable (s.all_patients_done = false →
      ∀ left ∈ s.doctor.leaves s.medicine_count, ¬ WakingDue { s with medicine_count := left }))
  | .patient p => inferInstanceAs (Decidable (s.all_patients_done = false →
      s.doctor.resting = true → s.patient p = .add →
      queue_count (queue_add s.patient_queue (some p)).1 = CLINIC_QUEUE_SIZE →
      s.medicine_count < MIN_MEDICINE_REQUIRED))
  | .pharmacist j => inferInstanceAs (Decidable (s.all_patients_done = false →
      s.doctor.resting = true → ¬ ComesForward s j))
  | .main => isTrue trivial

/-- Two patients come while the doctor waits. It treats them and comes back to
    wait, with nobody there. -/
def heardRound {patients pharmacists : Nat} (p q : Fin patients) :
    List (Thread patients pharmacists) :=
  List.replicate 5 .doctor ++ arrival p ++ arrival q ++ List.replicate 2 (.patient q) ++
    List.replicate 28 .doctor

theorem never_lost_run :
    ∃ s : State 2 0, Reaches step Heard (clinic_init 2 0 .RECEIVED) s ∧ s.doctor = .wait ∧
      s.patients_treated = 2 ∧ ¬ WakingDue s := by
  rcases never_lost 2 0 .RECEIVED with ⟨hattentive, hiff⟩
  have hok : Meets step Heard (clinic_init 2 0 .RECEIVED) (heardRound 0 1) := by decide +kernel
  have hend : (run step (clinic_init 2 0 .RECEIVED) (heardRound 0 1)).map
      (fun s => (s.doctor, s.patients_treated, s.all_patients_done)) = some (.wait, 2, false) := by
    decide +kernel
  rcases Option.map_eq_some_iff.mp hend with ⟨s, hrun, hs⟩
  simp only [Prod.mk.injEq] at hs
  have hreach := reaches_of_run hrun hok
  exact ⟨s, hreach, hs.1, hs.2.1, hattentive s hreach hs.1 hs.2.2⟩

/-- Two patients come before the doctor has gone to sleep for the first time.
    The second one finds the queue full and calls for the doctor, who then
    blocks. -/
theorem second_patient_unheard :
    ¬ ∀ (patients pharmacists : Nat) (medicine_status : MedicineStatus)
      (s : State patients pharmacists),
      Reachable step (clinic_init patients pharmacists medicine_status) s → Attentive s := by
  intro hclaim
  have hend : (run step (clinic_init 2 0 .RECEIVED)
      (arrival 0 ++ arrival 1 ++ List.replicate 2 (.patient 1) ++ List.replicate 4 .doctor)).map
      (fun s => (s.doctor, s.all_patients_done, decide (WakingDue s), s.patient 1))
        = some (.wait, false, true, .waiting) := by decide +kernel
  rcases Option.map_eq_some_iff.mp hend with ⟨s, hrun, hs⟩
  simp only [Prod.mk.injEq, decide_eq_true_eq] at hs
  exact hclaim 2 0 .RECEIVED s (reachable_of_run hrun) hs.1 hs.2.1 hs.2.2.1

end Lab9

end OsLabs
