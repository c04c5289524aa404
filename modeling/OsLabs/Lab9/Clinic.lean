import OsLabs.Core.Table
import OsLabs.Lab9.Queue

/-!
# The Clinic

`lab9/src` as a transition system: the doctor's thread, any number of patients
and pharmacists with a thread each, and the main thread, which waits for the
patients and then calls `clinic_signal_patients_done` twice.

The threads share three mutexes, one condition variable and some memory that
no mutex protects: the patients' and the doctor's status, the flag
`all_patients_done`, and the ends of the queue, which `queue_is_empty` reads
without the mutex. A step is one access to memory of that kind, or one lock of
a mutex, or what a thread does with a mutex up to where it unlocks it or locks
another one. The record of a mutex has no place in the state. Who has it is read
off the threads' places, and a lock can be taken when nobody has it.

A call of `pthread_cond_wait` is three steps: the mutex is released, the thread
wakes up, and it takes the mutex again. POSIX allows a thread to wake up without
a signal, and the waits here are the doctor's, on its own mutex, and the
pharmacists', on that of the medicine, all on one condition variable; so a
waiting thread may wake up at any time, and a signal changes nothing in the
state. What a run does without a signal at the right moment is a run of the
program all the same.

The array the doctor takes patients into has `CLINIC_QUEUE_SIZE` entries. A
store beyond it is undefined, and the doctor has no step after one.

`main` allocates the size of a pointer for each patient and each pharmacist, so
their records overlap. That is left out. Each has its own record here.

## Main definitions

* `PatientStatus`, `DoctorStatus`, `MedicineStatus`: The enumerations.
* `DoctorPc`, `PatientPc`, `PharmacistPc`, `MainPc`: Where a thread is.
* `State`, `Thread`: The clinic, and who takes a step.
* `State.wants`, `State.holds`: The mutex a thread is about to lock, and those
  it has.
* `doctor_thread_routine`, `patient_thread_routine`,
  `pharmacist_thread_routine`, `main_routine`: The four routines.
* `step`, `clinic_init`: The transition system.
* `DoctorMove`, `PatientMove`, `PharmacistMove`, `MainMove`: What a thread can do
  in a step.
* `Exclusive`: No mutex is had by two threads.

## Theorems

* `locks_eq_some`: A lock is taken when nobody has it.
* `doctor_moves`, `patient_moves`, `pharmacist_moves`, `main_moves`: Every step of
  a thread is one of its moves.
* `doctor_frame`, `patient_frame`, `pharmacist_frame`, `main_frame`: What the
  steps of a thread leave alone.
* `step_holds`: A thread gets a mutex only by locking it.
* `exclusive_init`, `exclusive_step`: No two threads ever have one mutex.
-/

namespace OsLabs

namespace Lab9

def MEDICINE_CABINET_CAPACITY : Int := 6
def MIN_MEDICINE_REQUIRED : Int := 3
def MAX_VISIT_RETRIES : Nat := 16

inductive PatientStatus
  | ARRIVING
  | WALKING
  | QUEUE
  | TREATMENT
  | GONE
  deriving DecidableEq

inductive DoctorStatus
  | SLEEPING
  | TREATING_PATIENTS
  | ACCEPTING_PHARMACY
  deriving DecidableEq

inductive MedicineStatus
  | IN_DELIVERY
  | RECEIVED
  deriving DecidableEq

/-- `doctor->mutex`, `clinic->medicine_mutex` and `queue->mutex`. -/
inductive Mutex
  | doctor
  | medicine
  | queue
  deriving DecidableEq

/-- Where `doctor_thread_routine` is. The arguments are its local variables,
    where they are still used. -/
inductive DoctorPc (patients : Nat)
  /-- At the condition of the outer loop. -/
  | outer
  | lock
  /-- At the `if` after `waking_mode = 0`. -/
  | test
  /-- In `doctor_sleep`. -/
  | sleep
  /-- At `pthread_cond_wait`, in it, and about to take the mutex again. -/
  | wait
  | waiting
  | relock
  /-- At the condition of the inner loop. -/
  | inner (waking_mode : Nat)
  | lock_medicine
  | read_medicine
  /-- In `queue_count`, before and after it locks the queue. -/
  | lock_count (med_count : Int) (pharm_waiting : Nat)
  | count (med_count : Int) (pharm_waiting : Nat)
  | unlock (waking_mode : Nat)
  /-- At the condition of the loop that takes patients from the queue. The
      list is what `patients_to_treat` holds below the index `i`. -/
  | drain (patients_to_treat : List (Option (Fin patients)))
  /-- In `queue_pop`, before and after it locks the queue. -/
  | lock_pop (patients_to_treat : List (Option (Fin patients)))
  | pop (patients_to_treat : List (Option (Fin patients)))
  /-- Past a store beyond the array. -/
  | overrun
  /-- About to lock the queue for the treatment. -/
  | lock_treat (patients_to_treat : List (Option (Fin patients)))
  | lock_consume (patients_to_treat : List (Option (Fin patients)))
  | consume (patients_to_treat : List (Option (Fin patients)))
  /-- In the loop over the patients taken, with those still to come. -/
  | treat (rest : List (Option (Fin patients)))
  /-- In `doctor_handle_patient`, asleep. -/
  | treating (patient : Fin patients) (rest : List (Option (Fin patients)))
  /-- Setting the status before `doctor_accept_medicine`. -/
  | accept
  | lock_refill
  | refill
  | ended
  deriving DecidableEq

/-- Where `patient_thread_routine` is. -/
inductive PatientPc
  /-- In `patient_go_to_hospital`. -/
  | arriving
  /-- At the condition of the outer loop. -/
  | test
  /-- In `queue_add`, before and after it locks the queue. -/
  | lock_add
  | add
  /-- In `patient_waiting_walk`. -/
  | walk
  /-- At the test of `visit_attempts`. -/
  | retry
  /-- In `patient_leave_without_visit`. -/
  | leave
  /-- About to set the status to `QUEUE`. -/
  | announce
  /-- In `queue_count`, before and after it locks the queue. -/
  | lock_count
  | count
  /-- At the test of the count and of the doctor's status. -/
  | check (patient_count : Int)
  | lock_doctor
  | wake
  /-- At the condition of the loop that waits. -/
  | waiting
  /-- In that loop, after `sleep(1)`. -/
  | asleep
  /-- At the condition of the loop that waits for the end of the treatment. -/
  | spin
  /-- In `patient_end_visit`. -/
  | end_visit
  /-- At the `if` that leaves the outer loop. -/
  | exit
  /-- Past the outer loop. -/
  | finish
  | ended
  deriving DecidableEq

/-- Where `pharmacist_thread_routine` is. -/
inductive PharmacistPc
  /-- At the condition of the outer loop. -/
  | test
  | lock
  /-- With the mutex: at the `if`, and at the condition of the loop inside. -/
  | check
  | recheck
  /-- Asleep in that loop, about to take the mutex again. -/
  | pause
  /-- About to lock the doctor's mutex. -/
  | summon
  | signal
  /-- About to unlock the mutex of the medicine and lock it again. -/
  | release
  | lock_wait
  /-- Setting `medicine_status`, and on to `pthread_cond_wait`. -/
  | deliver
  | waiting
  | relock
  /-- At the condition of the loop around it. -/
  | rewait
  | lock_leave
  | leave
  | ended
  deriving DecidableEq

/-- Where `main` is after it has created the threads: joining the patients, in
    the first or second call of `clinic_signal_patients_done`, or joining the
    doctor. -/
inductive MainPc
  | joining
  | lock_done (call : Nat)
  | set_done (call : Nat)
  | lock_signal (call : Nat)
  | signal (call : Nat)
  | lock_received (call : Nat)
  | received (call : Nat)
  | join_doctor
  | ended
  deriving DecidableEq

/-- Who takes a step. -/
inductive Thread (patients pharmacists : Nat)
  | doctor
  | patient (p : Fin patients)
  | pharmacist (j : Fin pharmacists)
  | main
  deriving DecidableEq

/-- The clinic with its threads. -/
structure State (patients pharmacists : Nat) where
  all_patients_done : Bool
  waiting_pharmacists : Nat
  patients_treated : Nat
  medicine_count : Int
  medicine_status : MedicineStatus
  doctor_status : DoctorStatus
  patient_queue : PatientQueue (Fin patients)
  status : Fin patients → PatientStatus
  visit_attempts : Fin patients → Nat
  doctor : DoctorPc patients
  patient : Fin patients → PatientPc
  pharmacist : Fin pharmacists → PharmacistPc
  main : MainPc

/-- The mutex the doctor is about to lock. -/
def DoctorPc.wants {patients : Nat} : DoctorPc patients → Option Mutex
  | .lock => some .doctor
  | .relock => some .doctor
  | .lock_medicine => some .medicine
  | .lock_count _ _ => some .queue
  | .lock_pop _ => some .queue
  | .lock_treat _ => some .queue
  | .lock_consume _ => some .medicine
  | .lock_refill => some .medicine
  | _ => none

/-- The mutexes the doctor has. -/
def DoctorPc.holds {patients : Nat} : DoctorPc patients → Mutex → Bool
  | .test, .doctor => true
  | .sleep, .doctor => true
  | .wait, .doctor => true
  | .inner _, .doctor => true
  | .lock_medicine, .doctor => true
  | .read_medicine, .doctor => true
  | .read_medicine, .medicine => true
  | .lock_count _ _, .doctor => true
  | .count _ _, .doctor => true
  | .count _ _, .queue => true
  | .unlock _, .doctor => true
  | .pop _, .queue => true
  | .lock_consume _, .queue => true
  | .consume _, .queue => true
  | .consume _, .medicine => true
  | .treat _, .queue => true
  | .treating _ _, .queue => true
  | .refill, .medicine => true
  | _, _ => false

def PatientPc.wants : PatientPc → Option Mutex
  | .lock_add => some .queue
  | .lock_count => some .queue
  | .lock_doctor => some .doctor
  | _ => none

def PatientPc.holds : PatientPc → Mutex → Bool
  | .add, .queue => true
  | .count, .queue => true
  | .wake, .doctor => true
  | _, _ => false

def PharmacistPc.wants : PharmacistPc → Option Mutex
  | .lock => some .medicine
  | .pause => some .medicine
  | .summon => some .doctor
  | .lock_wait => some .medicine
  | .relock => some .medicine
  | .lock_leave => some .medicine
  | _ => none

def PharmacistPc.holds : PharmacistPc → Mutex → Bool
  | .check, .medicine => true
  | .recheck, .medicine => true
  | .summon, .medicine => true
  | .signal, .medicine => true
  | .signal, .doctor => true
  | .release, .medicine => true
  | .deliver, .medicine => true
  | .rewait, .medicine => true
  | .leave, .medicine => true
  | _, _ => false

def MainPc.wants : MainPc → Option Mutex
  | .lock_done _ => some .medicine
  | .lock_signal _ => some .doctor
  | .lock_received _ => some .medicine
  | _ => none

def MainPc.holds : MainPc → Mutex → Bool
  | .set_done _, .medicine => true
  | .signal _, .doctor => true
  | .received _, .medicine => true
  | _, _ => false

section Routines

variable {patients pharmacists : Nat} (s : State patients pharmacists)

/-- The mutex a thread is about to lock. -/
def State.wants : Thread patients pharmacists → Option Mutex
  | .doctor => s.doctor.wants
  | .patient p => (s.patient p).wants
  | .pharmacist j => (s.pharmacist j).wants
  | .main => s.main.wants

/-- The mutexes a thread has. -/
def State.holds : Thread patients pharmacists → Mutex → Bool
  | .doctor => s.doctor.holds
  | .patient p => (s.patient p).holds
  | .pharmacist j => (s.pharmacist j).holds
  | .main => s.main.holds

/-- Nobody has the mutex. -/
def State.free (m : Mutex) : Prop :=
  s.doctor.holds m = false ∧ (∀ p, (s.patient p).holds m = false) ∧
    (∀ j, (s.pharmacist j).holds m = false) ∧ s.main.holds m = false

instance (m : Mutex) : Decidable (s.free m) :=
  inferInstanceAs (Decidable (_ ∧ _ ∧ _ ∧ _))

/-- `pthread_mutex_lock`: the state after it, when the mutex can be had. -/
def State.locks (m : Mutex) (s' : State patients pharmacists) :
    Option (State patients pharmacists) :=
  if s.free m then some s' else none

def State.setStatus (p : Fin patients) (status : PatientStatus) : State patients pharmacists :=
  { s with status := Function.update s.status p status }

def State.setPatient (p : Fin patients) (pc : PatientPc) : State patients pharmacists :=
  { s with patient := Function.update s.patient p pc }

def State.setPharmacist (j : Fin pharmacists) (pc : PharmacistPc) : State patients pharmacists :=
  { s with pharmacist := Function.update s.pharmacist j pc }

/-- How the doctor decides after it has counted. -/
def wakingMode (patient_count med_count : Int) (pharm_waiting : Nat) : Nat :=
  if patient_count = CLINIC_QUEUE_SIZE ∧ med_count ≥ MIN_MEDICINE_REQUIRED then 1
  else if pharm_waiting > 0 ∧ med_count < MIN_MEDICINE_REQUIRED then 2
  else 0

/-- How many of the pointers taken are not `NULL`. -/
def patientCount (patients_to_treat : List (Option (Fin patients))) : Nat :=
  patients_to_treat.countP Option.isSome

def doctor_thread_routine : Option (State patients pharmacists) :=
  match s.doctor with
  | .outer => some { s with doctor := if s.all_patients_done then .ended else .lock }
  -- `waking_mode = 0` comes right after the lock.
  | .lock => s.locks .doctor { s with doctor := .test }
  | .test => some { s with doctor := if s.all_patients_done then .unlock 0 else .sleep }
  | .sleep => some { s with doctor_status := .SLEEPING, doctor := .wait }
  -- The wait gives the mutex back, and ends with a signal or without one.
  | .wait => some { s with doctor := .waiting }
  | .waiting => some { s with doctor := .relock }
  | .relock => s.locks .doctor { s with doctor := .inner 0 }
  -- From turn to turn of this loop the doctor keeps its own mutex.
  | .inner waking_mode =>
    some { s with
      doctor := if waking_mode = 0 ∧ s.all_patients_done = false then .lock_medicine
        else .unlock waking_mode }
  | .lock_medicine => s.locks .medicine { s with doctor := .read_medicine }
  | .read_medicine => some { s with doctor := .lock_count s.medicine_count s.waiting_pharmacists }
  | .lock_count med_count pharm_waiting =>
    s.locks .queue { s with doctor := .count med_count pharm_waiting }
  | .count med_count pharm_waiting =>
    some { s with doctor := .inner (wakingMode (queue_count s.patient_queue) med_count pharm_waiting) }
  -- The mode is the local variable, whatever has happened since the count.
  | .unlock waking_mode =>
    some { s with
      doctor := if waking_mode = 1 then .drain [] else if waking_mode = 2 then .accept
        else .outer }
  -- `queue_is_empty` reads both ends without the mutex.
  | .drain patients_to_treat =>
    some { s with
      doctor := if queue_is_empty s.patient_queue then .lock_treat patients_to_treat
        else .lock_pop patients_to_treat }
  | .lock_pop patients_to_treat => s.locks .queue { s with doctor := .pop patients_to_treat }
  -- The loop does not compare `i` with the size of the array.
  | .pop patients_to_treat =>
    some { s with
      patient_queue := (queue_pop s.patient_queue).1
      doctor := if patients_to_treat.length < CLINIC_QUEUE_SIZE then
          .drain (patients_to_treat ++ [(queue_pop s.patient_queue).2])
        else .overrun }
  | .overrun => none
  -- Without a patient the doctor unlocks the queue and is done.
  | .lock_treat patients_to_treat =>
    s.locks .queue { s with
      doctor := if patientCount patients_to_treat > 0 then .lock_consume patients_to_treat
        else .treat [] }
  | .lock_consume patients_to_treat =>
    s.locks .medicine { s with doctor := .consume patients_to_treat }
  -- The loop that follows runs over the first `count` entries.
  | .consume patients_to_treat =>
    some { s with
      medicine_count := s.medicine_count - MIN_MEDICINE_REQUIRED
      doctor := .treat (patients_to_treat.take (patientCount patients_to_treat)) }
  | .treat [] => some { s with doctor := .outer }
  | .treat (none :: rest) => some { s with doctor := .treat rest }
  | .treat (some patient :: rest) =>
    some { s.setStatus patient .TREATMENT with doctor := .treating patient rest }
  -- The end of the sleep. No other thread writes `patients_treated`.
  | .treating patient rest =>
    some { s.setStatus patient .GONE with
      patients_treated := s.patients_treated + 1
      doctor := .treat rest }
  | .accept => some { s with doctor_status := .ACCEPTING_PHARMACY, doctor := .lock_refill }
  | .lock_refill => s.locks .medicine { s with doctor := .refill }
  | .refill =>
    some { s with
      medicine_count := MEDICINE_CABINET_CAPACITY
      medicine_status := .RECEIVED
      doctor := .outer }
  | .ended => none

def patient_thread_routine (p : Fin patients) : Option (State patients pharmacists) :=
  match s.patient p with
  | .arriving => some ((s.setStatus p .ARRIVING).setPatient p .test)
  | .test => some (s.setPatient p (if s.status p = .GONE then .finish else .lock_add))
  | .lock_add => s.locks .queue (s.setPatient p .add)
  -- From here on the doctor can take the patient, who has not announced itself.
  | .add =>
    some ({ s with patient_queue := (queue_add s.patient_queue (some p)).1 }.setPatient p
      (if (queue_add s.patient_queue (some p)).2 = -1 then .walk else .announce))
  | .walk =>
    some ({ s.setStatus p .WALKING with
      visit_attempts := Function.update s.visit_attempts p (s.visit_attempts p + 1) }.setPatient p
        .retry)
  | .retry =>
    some (s.setPatient p (if s.visit_attempts p > MAX_VISIT_RETRIES then .leave else .test))
  | .leave => some ((s.setStatus p .GONE).setPatient p .finish)
  -- Whatever the status is by now, it is `QUEUE` afterwards.
  | .announce => some ((s.setStatus p .QUEUE).setPatient p .lock_count)
  | .lock_count => s.locks .queue (s.setPatient p .count)
  | .count => some (s.setPatient p (.check (queue_count s.patient_queue)))
  -- The count is a local variable, the doctor's status is read without a mutex.
  | .check patient_count =>
    some (s.setPatient p
      (if patient_count = CLINIC_QUEUE_SIZE ∧ s.doctor_status = .SLEEPING then .lock_doctor
        else .waiting))
  | .lock_doctor => s.locks .doctor (s.setPatient p .wake)
  | .wake => some (s.setPatient p .waiting)
  -- Every other status ends this loop, `TREATMENT` as well.
  | .waiting => some (s.setPatient p (if s.status p = .QUEUE then .asleep else .exit))
  | .asleep => some (s.setPatient p (if s.status p = .TREATMENT then .spin else .waiting))
  | .spin => some (s.setPatient p (if s.status p = .TREATMENT then .spin else .end_visit))
  | .end_visit => some ((s.setStatus p .GONE).setPatient p .exit)
  -- Only `GONE` leaves the outer loop.
  | .exit => some (s.setPatient p (if s.status p = .GONE then .finish else .test))
  | .finish => some ((s.setStatus p .GONE).setPatient p .ended)
  | .ended => none

/-- What a pharmacist does with the mutex of the medicine when it does not wait
    for the cabinet to be emptied: it comes forward if there is too little
    medicine, and otherwise goes away. -/
def comeForward (j : Fin pharmacists) : State patients pharmacists :=
  if s.medicine_count < MIN_MEDICINE_REQUIRED then
    { s with waiting_pharmacists := s.waiting_pharmacists + 1 }.setPharmacist j .summon
  else s.setPharmacist j .test

/-- The loop that waits for the cabinet to be emptied, and what comes after. -/
def awaitEmptied (j : Fin pharmacists) : State patients pharmacists :=
  if s.medicine_count ≥ MEDICINE_CABINET_CAPACITY ∧ s.all_patients_done = false then
    s.setPharmacist j .pause
  else if s.all_patients_done then s.setPharmacist j .ended
  else comeForward s j

def pharmacist_thread_routine (j : Fin pharmacists) : Option (State patients pharmacists) :=
  match s.pharmacist j with
  | .test => some (s.setPharmacist j (if s.all_patients_done then .ended else .lock))
  | .lock => s.locks .medicine (s.setPharmacist j .check)
  | .check =>
    some (if s.medicine_count ≥ MEDICINE_CABINET_CAPACITY then awaitEmptied s j
      else comeForward s j)
  | .recheck => some (awaitEmptied s j)
  | .pause => s.locks .medicine (s.setPharmacist j .recheck)
  -- The doctor's mutex is taken with that of the medicine in hand.
  | .summon => s.locks .doctor (s.setPharmacist j .signal)
  | .signal => some (s.setPharmacist j .release)
  | .release => some (s.setPharmacist j .lock_wait)
  | .lock_wait => s.locks .medicine (s.setPharmacist j .deliver)
  | .deliver => some ({ s with medicine_status := .IN_DELIVERY }.setPharmacist j .waiting)
  -- The condition variable is the doctor's, the mutex that of the medicine.
  | .waiting => some (s.setPharmacist j .relock)
  | .relock => s.locks .medicine (s.setPharmacist j .rewait)
  | .rewait =>
    some (s.setPharmacist j (if s.medicine_status = .IN_DELIVERY then .waiting else .lock_leave))
  | .lock_leave => s.locks .medicine (s.setPharmacist j .leave)
  | .leave => some (s.setPharmacist j .test)
  | .ended => none

/-- The end of `main`, with the two calls of `clinic_signal_patients_done`. -/
def main_routine : Option (State patients pharmacists) :=
  match s.main with
  -- The loop of joins ends when all patients have ended.
  | .joining => if ∀ p, s.patient p = .ended then some { s with main := .lock_done 0 } else none
  | .lock_done call => s.locks .medicine { s with main := .set_done call }
  | .set_done call => some { s with all_patients_done := true, main := .lock_signal call }
  | .lock_signal call => s.locks .doctor { s with main := .signal call }
  | .signal call => some { s with main := .lock_received call }
  | .lock_received call => s.locks .medicine { s with main := .received call }
  | .received call =>
    some { s with
      medicine_status := .RECEIVED
      main := if call = 0 then .lock_done 1 else .join_doctor }
  | .join_doctor => if s.doctor = .ended then some { s with main := .ended } else none
  | .ended => none

def step : Thread patients pharmacists → Option (State patients pharmacists)
  | .doctor => doctor_thread_routine s
  | .patient p => patient_thread_routine s p
  | .pharmacist j => pharmacist_thread_routine s j
  | .main => main_routine s

/-- The clinic after `clinic_init`, which does not set `medicine_status`, and
    after the threads have been created. -/
def clinic_init (patients pharmacists : Nat) (medicine_status : MedicineStatus) :
    State patients pharmacists where
  all_patients_done := false
  waiting_pharmacists := 0
  patients_treated := 0
  medicine_count := MEDICINE_CABINET_CAPACITY
  medicine_status := medicine_status
  doctor_status := .SLEEPING
  patient_queue := queue_init
  status := fun _ => .ARRIVING
  visit_attempts := fun _ => 0
  doctor := .outer
  patient := fun _ => .arriving
  pharmacist := fun _ => .test
  main := .joining

end Routines

section Locks

variable {patients pharmacists : Nat} {s s' : State patients pharmacists}

/-- A lock is taken when nobody has it. -/
theorem locks_eq_some {m : Mutex} {t : State patients pharmacists}
    (h : s.locks m t = some s') : s.free m ∧ s' = t := by
  unfold State.locks at h
  split_ifs at h with hfree
  exact ⟨hfree, (Option.some.inj h).symm⟩

/-- What the doctor can do in a step, one constructor for each way through its
    routine, with the tests on that way. -/
inductive DoctorMove (s : State patients pharmacists) : State patients pharmacists → Prop
  | outer (hpc : s.doctor = .outer) (hopen : s.all_patients_done = false) :
      DoctorMove s { s with doctor := .lock }
  | outer_ended (hpc : s.doctor = .outer) (hdone : s.all_patients_done = true) :
      DoctorMove s { s with doctor := .ended }
  | lock (hpc : s.doctor = .lock) (hfree : s.free .doctor) :
      DoctorMove s { s with doctor := .test }
  | test (hpc : s.doctor = .test) (hopen : s.all_patients_done = false) :
      DoctorMove s { s with doctor := .sleep }
  | test_ended (hpc : s.doctor = .test) (hdone : s.all_patients_done = true) :
      DoctorMove s { s with doctor := .unlock 0 }
  | sleep (hpc : s.doctor = .sleep) :
      DoctorMove s { s with doctor_status := .SLEEPING, doctor := .wait }
  | wait (hpc : s.doctor = .wait) : DoctorMove s { s with doctor := .waiting }
  | waiting (hpc : s.doctor = .waiting) : DoctorMove s { s with doctor := .relock }
  | relock (hpc : s.doctor = .relock) (hfree : s.free .doctor) :
      DoctorMove s { s with doctor := .inner 0 }
  | inner (hpc : s.doctor = .inner 0) (hopen : s.all_patients_done = false) :
      DoctorMove s { s with doctor := .lock_medicine }
  | inner_left {waking_mode : Nat} (hpc : s.doctor = .inner waking_mode)
      (hend : waking_mode = 0 → s.all_patients_done = true) :
      DoctorMove s { s with doctor := .unlock waking_mode }
  | lock_medicine (hpc : s.doctor = .lock_medicine) (hfree : s.free .medicine) :
      DoctorMove s { s with doctor := .read_medicine }
  | read_medicine (hpc : s.doctor = .read_medicine) :
      DoctorMove s { s with doctor := .lock_count s.medicine_count s.waiting_pharmacists }
  | lock_count {med_count : Int} {pharm_waiting : Nat}
      (hpc : s.doctor = .lock_count med_count pharm_waiting) (hfree : s.free .queue) :
      DoctorMove s { s with doctor := .count med_count pharm_waiting }
  | count {med_count : Int} {pharm_waiting : Nat}
      (hpc : s.doctor = .count med_count pharm_waiting) :
      DoctorMove s { s with
        doctor := .inner (wakingMode (queue_count s.patient_queue) med_count pharm_waiting) }
  | unlock_treat (hpc : s.doctor = .unlock 1) : DoctorMove s { s with doctor := .drain [] }
  | unlock_accept (hpc : s.doctor = .unlock 2) : DoctorMove s { s with doctor := .accept }
  | unlock {waking_mode : Nat} (hpc : s.doctor = .unlock waking_mode)
      (htreat : waking_mode ≠ 1) (haccept : waking_mode ≠ 2) :
      DoctorMove s { s with doctor := .outer }
  | drain {batch : List (Option (Fin patients))} (hpc : s.doctor = .drain batch)
      (hmore : ¬ queue_is_empty s.patient_queue = true) :
      DoctorMove s { s with doctor := .lock_pop batch }
  | drain_empty {batch : List (Option (Fin patients))} (hpc : s.doctor = .drain batch)
      (hempty : queue_is_empty s.patient_queue = true) :
      DoctorMove s { s with doctor := .lock_treat batch }
  | lock_pop {batch : List (Option (Fin patients))} (hpc : s.doctor = .lock_pop batch)
      (hfree : s.free .queue) : DoctorMove s { s with doctor := .pop batch }
  | pop {batch : List (Option (Fin patients))} (hpc : s.doctor = .pop batch)
      (hroom : batch.length < CLINIC_QUEUE_SIZE) :
      DoctorMove s { s with
        patient_queue := (queue_pop s.patient_queue).1
        doctor := .drain (batch ++ [(queue_pop s.patient_queue).2]) }
  | pop_overrun {batch : List (Option (Fin patients))} (hpc : s.doctor = .pop batch)
      (hroom : ¬ batch.length < CLINIC_QUEUE_SIZE) :
      DoctorMove s { s with
        patient_queue := (queue_pop s.patient_queue).1
        doctor := .overrun }
  | lock_treat {batch : List (Option (Fin patients))} (hpc : s.doctor = .lock_treat batch)
      (hfree : s.free .queue) (hcount : patientCount batch > 0) :
      DoctorMove s { s with doctor := .lock_consume batch }
  | lock_treat_nobody {batch : List (Option (Fin patients))}
      (hpc : s.doctor = .lock_treat batch) (hfree : s.free .queue)
      (hcount : ¬ patientCount batch > 0) : DoctorMove s { s with doctor := .treat [] }
  | lock_consume {batch : List (Option (Fin patients))} (hpc : s.doctor = .lock_consume batch)
      (hfree : s.free .medicine) : DoctorMove s { s with doctor := .consume batch }
  | consume {batch : List (Option (Fin patients))} (hpc : s.doctor = .consume batch) :
      DoctorMove s { s with
        medicine_count := s.medicine_count - MIN_MEDICINE_REQUIRED
        doctor := .treat (batch.take (patientCount batch)) }
  | treat_done (hpc : s.doctor = .treat []) : DoctorMove s { s with doctor := .outer }
  | treat_null {rest : List (Option (Fin patients))} (hpc : s.doctor = .treat (none :: rest)) :
      DoctorMove s { s with doctor := .treat rest }
  | treat {patient : Fin patients} {rest : List (Option (Fin patients))}
      (hpc : s.doctor = .treat (some patient :: rest)) :
      DoctorMove s { s.setStatus patient .TREATMENT with doctor := .treating patient rest }
  | treating {patient : Fin patients} {rest : List (Option (Fin patients))}
      (hpc : s.doctor = .treating patient rest) :
      DoctorMove s { s.setStatus patient .GONE with
        patients_treated := s.patients_treated + 1
        doctor := .treat rest }
  | accept (hpc : s.doctor = .accept) :
      DoctorMove s { s with doctor_status := .ACCEPTING_PHARMACY, doctor := .lock_refill }
  | lock_refill (hpc : s.doctor = .lock_refill) (hfree : s.free .medicine) :
      DoctorMove s { s with doctor := .refill }
  | refill (hpc : s.doctor = .refill) :
      DoctorMove s { s with
        medicine_count := MEDICINE_CABINET_CAPACITY
        medicine_status := .RECEIVED
        doctor := .outer }

/-- Every step of the doctor is one of these. What the doctor's steps preserve
    is proved by cases of the move. -/
theorem doctor_moves (hstep : doctor_thread_routine s = some s') : DoctorMove s s' := by
  cases hpc : s.doctor with
  | lock =>
      simp only [doctor_thread_routine, hpc] at hstep
      rcases locks_eq_some hstep with ⟨hfree, rfl⟩
      exact .lock hpc hfree
  | relock =>
      simp only [doctor_thread_routine, hpc] at hstep
      rcases locks_eq_some hstep with ⟨hfree, rfl⟩
      exact .relock hpc hfree
  | lock_medicine =>
      simp only [doctor_thread_routine, hpc] at hstep
      rcases locks_eq_some hstep with ⟨hfree, rfl⟩
      exact .lock_medicine hpc hfree
  | lock_count med_count pharm_waiting =>
      simp only [doctor_thread_routine, hpc] at hstep
      rcases locks_eq_some hstep with ⟨hfree, rfl⟩
      exact .lock_count hpc hfree
  | lock_pop batch =>
      simp only [doctor_thread_routine, hpc] at hstep
      rcases locks_eq_some hstep with ⟨hfree, rfl⟩
      exact .lock_pop hpc hfree
  | lock_treat batch =>
      simp only [doctor_thread_routine, hpc] at hstep
      rcases locks_eq_some hstep with ⟨hfree, rfl⟩
      split_ifs with hcount
      · exact .lock_treat hpc hfree hcount
      · exact .lock_treat_nobody hpc hfree hcount
  | lock_consume batch =>
      simp only [doctor_thread_routine, hpc] at hstep
      rcases locks_eq_some hstep with ⟨hfree, rfl⟩
      exact .lock_consume hpc hfree
  | lock_refill =>
      simp only [doctor_thread_routine, hpc] at hstep
      rcases locks_eq_some hstep with ⟨hfree, rfl⟩
      exact .lock_refill hpc hfree
  | outer =>
      simp only [doctor_thread_routine, hpc, Option.some.injEq] at hstep
      rw [← hstep]
      split_ifs with hdone
      · exact .outer_ended hpc hdone
      · exact .outer hpc (Bool.eq_false_of_not_eq_true hdone)
  | test =>
      simp only [doctor_thread_routine, hpc, Option.some.injEq] at hstep
      rw [← hstep]
      split_ifs with hdone
      · exact .test_ended hpc hdone
      · exact .test hpc (Bool.eq_false_of_not_eq_true hdone)
  | inner waking_mode =>
      simp only [doctor_thread_routine, hpc, Option.some.injEq] at hstep
      rw [← hstep]
      split_ifs with hgo
      · rw [hgo.1] at hpc
        exact .inner hpc hgo.2
      · exact .inner_left hpc fun hzero =>
          Bool.eq_true_of_not_eq_false fun hopen => hgo ⟨hzero, hopen⟩
  | unlock waking_mode =>
      simp only [doctor_thread_routine, hpc, Option.some.injEq] at hstep
      rw [← hstep]
      split_ifs with hone htwo
      · rw [hone] at hpc
        exact .unlock_treat hpc
      · rw [htwo] at hpc
        exact .unlock_accept hpc
      · exact .unlock hpc hone htwo
  | drain batch =>
      simp only [doctor_thread_routine, hpc, Option.some.injEq] at hstep
      rw [← hstep]
      split_ifs with hempty
      · exact .drain_empty hpc hempty
      · exact .drain hpc hempty
  | pop batch =>
      simp only [doctor_thread_routine, hpc, Option.some.injEq] at hstep
      rw [← hstep]
      split_ifs with hroom
      · exact .pop hpc hroom
      · exact .pop_overrun hpc hroom
  | overrun | ended => simp [doctor_thread_routine, hpc] at hstep
  | treat rest =>
      rcases rest with _ | ⟨_ | p, rest⟩ <;>
        simp only [doctor_thread_routine, hpc, Option.some.injEq] at hstep <;> rw [← hstep]
      · exact .treat_done hpc
      · exact .treat_null hpc
      · exact .treat hpc
  | treating p rest =>
      simp only [doctor_thread_routine, hpc, Option.some.injEq] at hstep
      rw [← hstep]
      exact .treating hpc
  | consume batch =>
      simp only [doctor_thread_routine, hpc, Option.some.injEq] at hstep
      rw [← hstep]
      exact .consume hpc
  | count med_count pharm_waiting =>
      simp only [doctor_thread_routine, hpc, Option.some.injEq] at hstep
      rw [← hstep]
      exact .count hpc
  -- From each of the places left there is one way on.
  | _ =>
      simp only [doctor_thread_routine, hpc, Option.some.injEq] at hstep
      rw [← hstep]
      constructor
      exact hpc

/-- What a patient can do in a step. -/
inductive PatientMove (s : State patients pharmacists) (p : Fin patients) :
    State patients pharmacists → Prop
  | arriving (hpc : s.patient p = .arriving) :
      PatientMove s p ((s.setStatus p .ARRIVING).setPatient p .test)
  | test (hpc : s.patient p = .test) (hstatus : s.status p ≠ .GONE) :
      PatientMove s p (s.setPatient p .lock_add)
  | test_gone (hpc : s.patient p = .test) (hstatus : s.status p = .GONE) :
      PatientMove s p (s.setPatient p .finish)
  | lock_add (hpc : s.patient p = .lock_add) (hfree : s.free .queue) :
      PatientMove s p (s.setPatient p .add)
  | add (hpc : s.patient p = .add) (hadded : (queue_add s.patient_queue (some p)).2 ≠ -1) :
      PatientMove s p ({ s with
        patient_queue := (queue_add s.patient_queue (some p)).1 }.setPatient p .announce)
  | add_refused (hpc : s.patient p = .add)
      (hrefused : (queue_add s.patient_queue (some p)).2 = -1) :
      PatientMove s p ({ s with
        patient_queue := (queue_add s.patient_queue (some p)).1 }.setPatient p .walk)
  | walk (hpc : s.patient p = .walk) :
      PatientMove s p ({ s.setStatus p .WALKING with
        visit_attempts := Function.update s.visit_attempts p (s.visit_attempts p + 1) }.setPatient p
          .retry)
  | retry (hpc : s.patient p = .retry) (hfew : ¬ s.visit_attempts p > MAX_VISIT_RETRIES) :
      PatientMove s p (s.setPatient p .test)
  | retry_leave (hpc : s.patient p = .retry) (hmany : s.visit_attempts p > MAX_VISIT_RETRIES) :
      PatientMove s p (s.setPatient p .leave)
  | leave (hpc : s.patient p = .leave) :
      PatientMove s p ((s.setStatus p .GONE).setPatient p .finish)
  | announce (hpc : s.patient p = .announce) :
      PatientMove s p ((s.setStatus p .QUEUE).setPatient p .lock_count)
  | lock_count (hpc : s.patient p = .lock_count) (hfree : s.free .queue) :
      PatientMove s p (s.setPatient p .count)
  | count (hpc : s.patient p = .count) :
      PatientMove s p (s.setPatient p (.check (queue_count s.patient_queue)))
  | check {patient_count : Int} (hpc : s.patient p = .check patient_count)
      (hlast : patient_count = CLINIC_QUEUE_SIZE ∧ s.doctor_status = .SLEEPING) :
      PatientMove s p (s.setPatient p .lock_doctor)
  | check_waiting {patient_count : Int} (hpc : s.patient p = .check patient_count)
      (hlast : ¬ (patient_count = CLINIC_QUEUE_SIZE ∧ s.doctor_status = .SLEEPING)) :
      PatientMove s p (s.setPatient p .waiting)
  | lock_doctor (hpc : s.patient p = .lock_doctor) (hfree : s.free .doctor) :
      PatientMove s p (s.setPatient p .wake)
  | wake (hpc : s.patient p = .wake) : PatientMove s p (s.setPatient p .waiting)
  | waiting (hpc : s.patient p = .waiting) (hstatus : s.status p = .QUEUE) :
      PatientMove s p (s.setPatient p .asleep)
  | waiting_over (hpc : s.patient p = .waiting) (hstatus : s.status p ≠ .QUEUE) :
      PatientMove s p (s.setPatient p .exit)
  | asleep (hpc : s.patient p = .asleep) (hstatus : s.status p ≠ .TREATMENT) :
      PatientMove s p (s.setPatient p .waiting)
  | asleep_treated (hpc : s.patient p = .asleep) (hstatus : s.status p = .TREATMENT) :
      PatientMove s p (s.setPatient p .spin)
  | spin (hpc : s.patient p = .spin) (hstatus : s.status p = .TREATMENT) :
      PatientMove s p (s.setPatient p .spin)
  | spin_over (hpc : s.patient p = .spin) (hstatus : s.status p ≠ .TREATMENT) :
      PatientMove s p (s.setPatient p .end_visit)
  | end_visit (hpc : s.patient p = .end_visit) :
      PatientMove s p ((s.setStatus p .GONE).setPatient p .exit)
  | exit (hpc : s.patient p = .exit) (hstatus : s.status p ≠ .GONE) :
      PatientMove s p (s.setPatient p .test)
  | exit_gone (hpc : s.patient p = .exit) (hstatus : s.status p = .GONE) :
      PatientMove s p (s.setPatient p .finish)
  | finish (hpc : s.patient p = .finish) :
      PatientMove s p ((s.setStatus p .GONE).setPatient p .ended)

theorem patient_moves {p : Fin patients} (hstep : patient_thread_routine s p = some s') :
    PatientMove s p s' := by
  cases hpc : s.patient p with
  | lock_add =>
      simp only [patient_thread_routine, hpc] at hstep
      rcases locks_eq_some hstep with ⟨hfree, rfl⟩
      exact .lock_add hpc hfree
  | lock_count =>
      simp only [patient_thread_routine, hpc] at hstep
      rcases locks_eq_some hstep with ⟨hfree, rfl⟩
      exact .lock_count hpc hfree
  | lock_doctor =>
      simp only [patient_thread_routine, hpc] at hstep
      rcases locks_eq_some hstep with ⟨hfree, rfl⟩
      exact .lock_doctor hpc hfree
  | test =>
      simp only [patient_thread_routine, hpc, Option.some.injEq] at hstep
      rw [← hstep]
      split_ifs with h
      · exact .test_gone hpc h
      · exact .test hpc h
  | add =>
      simp only [patient_thread_routine, hpc, Option.some.injEq] at hstep
      rw [← hstep]
      split_ifs with h
      · exact .add_refused hpc h
      · exact .add hpc h
  | retry =>
      simp only [patient_thread_routine, hpc, Option.some.injEq] at hstep
      rw [← hstep]
      split_ifs with h
      · exact .retry_leave hpc h
      · exact .retry hpc h
  | check patient_count =>
      simp only [patient_thread_routine, hpc, Option.some.injEq] at hstep
      rw [← hstep]
      split_ifs with h
      · exact .check hpc h
      · exact .check_waiting hpc h
  | waiting =>
      simp only [patient_thread_routine, hpc, Option.some.injEq] at hstep
      rw [← hstep]
      split_ifs with h
      · exact .waiting hpc h
      · exact .waiting_over hpc h
  | asleep =>
      simp only [patient_thread_routine, hpc, Option.some.injEq] at hstep
      rw [← hstep]
      split_ifs with h
      · exact .asleep_treated hpc h
      · exact .asleep hpc h
  | spin =>
      simp only [patient_thread_routine, hpc, Option.some.injEq] at hstep
      rw [← hstep]
      split_ifs with h
      · exact .spin hpc h
      · exact .spin_over hpc h
  | exit =>
      simp only [patient_thread_routine, hpc, Option.some.injEq] at hstep
      rw [← hstep]
      split_ifs with h
      · exact .exit_gone hpc h
      · exact .exit hpc h
  | wake =>
      simp only [patient_thread_routine, hpc, Option.some.injEq] at hstep
      rw [← hstep]
      exact .wake hpc
  | ended => simp [patient_thread_routine, hpc] at hstep
  | _ =>
      simp only [patient_thread_routine, hpc, Option.some.injEq] at hstep
      rw [← hstep]
      constructor
      exact hpc

/-- What a pharmacist can do in a step. -/
inductive PharmacistMove (s : State patients pharmacists) (j : Fin pharmacists) :
    State patients pharmacists → Prop
  | test (hpc : s.pharmacist j = .test) (hopen : s.all_patients_done = false) :
      PharmacistMove s j (s.setPharmacist j .lock)
  | test_ended (hpc : s.pharmacist j = .test) (hdone : s.all_patients_done = true) :
      PharmacistMove s j (s.setPharmacist j .ended)
  | lock (hpc : s.pharmacist j = .lock) (hfree : s.free .medicine) :
      PharmacistMove s j (s.setPharmacist j .check)
  | full (hpc : s.pharmacist j = .check ∨ s.pharmacist j = .recheck)
      (hopen : s.all_patients_done = false)
      (hfull : s.medicine_count ≥ MEDICINE_CABINET_CAPACITY) :
      PharmacistMove s j (s.setPharmacist j .pause)
  | all_done (hpc : s.pharmacist j = .check ∨ s.pharmacist j = .recheck)
      (hdone : s.all_patients_done = true)
      (hfull : s.pharmacist j = .check → s.medicine_count ≥ MEDICINE_CABINET_CAPACITY) :
      PharmacistMove s j (s.setPharmacist j .ended)
  | few (hpc : s.pharmacist j = .check ∨ s.pharmacist j = .recheck ∧ s.all_patients_done = false)
      (hfew : s.medicine_count < MIN_MEDICINE_REQUIRED) :
      PharmacistMove s j
        ({ s with waiting_pharmacists := s.waiting_pharmacists + 1 }.setPharmacist j .summon)
  | enough (hpc : s.pharmacist j = .check ∨ s.pharmacist j = .recheck ∧ s.all_patients_done = false)
      (hroom : ¬ s.medicine_count ≥ MEDICINE_CABINET_CAPACITY)
      (henough : ¬ s.medicine_count < MIN_MEDICINE_REQUIRED) :
      PharmacistMove s j (s.setPharmacist j .test)
  | pause (hpc : s.pharmacist j = .pause) (hfree : s.free .medicine) :
      PharmacistMove s j (s.setPharmacist j .recheck)
  | summon (hpc : s.pharmacist j = .summon) (hfree : s.free .doctor) :
      PharmacistMove s j (s.setPharmacist j .signal)
  | signal (hpc : s.pharmacist j = .signal) : PharmacistMove s j (s.setPharmacist j .release)
  | release (hpc : s.pharmacist j = .release) : PharmacistMove s j (s.setPharmacist j .lock_wait)
  | lock_wait (hpc : s.pharmacist j = .lock_wait) (hfree : s.free .medicine) :
      PharmacistMove s j (s.setPharmacist j .deliver)
  | deliver (hpc : s.pharmacist j = .deliver) :
      PharmacistMove s j ({ s with medicine_status := .IN_DELIVERY }.setPharmacist j .waiting)
  | waiting (hpc : s.pharmacist j = .waiting) : PharmacistMove s j (s.setPharmacist j .relock)
  | relock (hpc : s.pharmacist j = .relock) (hfree : s.free .medicine) :
      PharmacistMove s j (s.setPharmacist j .rewait)
  | rewait (hpc : s.pharmacist j = .rewait) (hstatus : s.medicine_status = .IN_DELIVERY) :
      PharmacistMove s j (s.setPharmacist j .waiting)
  | rewait_over (hpc : s.pharmacist j = .rewait) (hstatus : s.medicine_status ≠ .IN_DELIVERY) :
      PharmacistMove s j (s.setPharmacist j .lock_leave)
  | lock_leave (hpc : s.pharmacist j = .lock_leave) (hfree : s.free .medicine) :
      PharmacistMove s j (s.setPharmacist j .leave)
  | leave (hpc : s.pharmacist j = .leave) : PharmacistMove s j (s.setPharmacist j .test)

theorem pharmacist_moves {j : Fin pharmacists}
    (hstep : pharmacist_thread_routine s j = some s') : PharmacistMove s j s' := by
  cases hpc : s.pharmacist j with
  | lock =>
      simp only [pharmacist_thread_routine, hpc] at hstep
      rcases locks_eq_some hstep with ⟨hfree, rfl⟩
      exact .lock hpc hfree
  | pause =>
      simp only [pharmacist_thread_routine, hpc] at hstep
      rcases locks_eq_some hstep with ⟨hfree, rfl⟩
      exact .pause hpc hfree
  | summon =>
      simp only [pharmacist_thread_routine, hpc] at hstep
      rcases locks_eq_some hstep with ⟨hfree, rfl⟩
      exact .summon hpc hfree
  | lock_wait =>
      simp only [pharmacist_thread_routine, hpc] at hstep
      rcases locks_eq_some hstep with ⟨hfree, rfl⟩
      exact .lock_wait hpc hfree
  | relock =>
      simp only [pharmacist_thread_routine, hpc] at hstep
      rcases locks_eq_some hstep with ⟨hfree, rfl⟩
      exact .relock hpc hfree
  | lock_leave =>
      simp only [pharmacist_thread_routine, hpc] at hstep
      rcases locks_eq_some hstep with ⟨hfree, rfl⟩
      exact .lock_leave hpc hfree
  | test =>
      simp only [pharmacist_thread_routine, hpc, Option.some.injEq] at hstep
      rw [← hstep]
      split_ifs with hdone
      · exact .test_ended hpc hdone
      · exact .test hpc (Bool.eq_false_of_not_eq_true hdone)
  -- A cabinet that is not full may still have enough in it.
  | check =>
      simp only [pharmacist_thread_routine, hpc, Option.some.injEq, awaitEmptied, comeForward]
        at hstep
      rw [← hstep]
      split_ifs with hfull hwaits hdone hfew hfew
      · exact .full (Or.inl hpc) hwaits.2 hfull
      · exact .all_done (Or.inl hpc) hdone fun _ => hfull
      · exact absurd ⟨hfull, Bool.eq_false_of_not_eq_true hdone⟩ hwaits
      · exact absurd ⟨hfull, Bool.eq_false_of_not_eq_true hdone⟩ hwaits
      · exact .few (Or.inl hpc) hfew
      · exact .enough (Or.inl hpc) hfull hfew
  | recheck =>
      simp only [pharmacist_thread_routine, hpc, Option.some.injEq, awaitEmptied, comeForward]
        at hstep
      rw [← hstep]
      split_ifs with hwaits hdone hfew
      · exact .full (Or.inr hpc) hwaits.2 hwaits.1
      · exact .all_done (Or.inr hpc) hdone fun h => absurd (hpc.symm.trans h) (by simp)
      · exact .few (Or.inr ⟨hpc, Bool.eq_false_of_not_eq_true hdone⟩) hfew
      · have hopen := Bool.eq_false_of_not_eq_true hdone
        exact .enough (Or.inr ⟨hpc, hopen⟩) (fun hfull => hwaits ⟨hfull, hopen⟩) hfew
  | rewait =>
      simp only [pharmacist_thread_routine, hpc, Option.some.injEq] at hstep
      rw [← hstep]
      split_ifs with hstatus
      · exact .rewait hpc hstatus
      · exact .rewait_over hpc hstatus
  | leave =>
      simp only [pharmacist_thread_routine, hpc, Option.some.injEq] at hstep
      rw [← hstep]
      exact .leave hpc
  | ended => simp [pharmacist_thread_routine, hpc] at hstep
  | _ =>
      simp only [pharmacist_thread_routine, hpc, Option.some.injEq] at hstep
      rw [← hstep]
      constructor
      exact hpc

/-- What the main thread can do in a step. -/
inductive MainMove (s : State patients pharmacists) : State patients pharmacists → Prop
  | joining (hpc : s.main = .joining) (hended : ∀ p, s.patient p = .ended) :
      MainMove s { s with main := .lock_done 0 }
  | lock_done {call : Nat} (hpc : s.main = .lock_done call) (hfree : s.free .medicine) :
      MainMove s { s with main := .set_done call }
  | set_done {call : Nat} (hpc : s.main = .set_done call) :
      MainMove s { s with all_patients_done := true, main := .lock_signal call }
  | lock_signal {call : Nat} (hpc : s.main = .lock_signal call) (hfree : s.free .doctor) :
      MainMove s { s with main := .signal call }
  | signal {call : Nat} (hpc : s.main = .signal call) :
      MainMove s { s with main := .lock_received call }
  | lock_received {call : Nat} (hpc : s.main = .lock_received call) (hfree : s.free .medicine) :
      MainMove s { s with main := .received call }
  | received_first (hpc : s.main = .received 0) :
      MainMove s { s with medicine_status := .RECEIVED, main := .lock_done 1 }
  | received {call : Nat} (hpc : s.main = .received call) (hcall : call ≠ 0) :
      MainMove s { s with medicine_status := .RECEIVED, main := .join_doctor }
  | join_doctor (hpc : s.main = .join_doctor) (hended : s.doctor = .ended) :
      MainMove s { s with main := .ended }

theorem main_moves (hstep : main_routine s = some s') : MainMove s s' := by
  cases hpc : s.main with
  | lock_done call =>
      simp only [main_routine, hpc] at hstep
      rcases locks_eq_some hstep with ⟨hfree, rfl⟩
      exact .lock_done hpc hfree
  | lock_signal call =>
      simp only [main_routine, hpc] at hstep
      rcases locks_eq_some hstep with ⟨hfree, rfl⟩
      exact .lock_signal hpc hfree
  | lock_received call =>
      simp only [main_routine, hpc] at hstep
      rcases locks_eq_some hstep with ⟨hfree, rfl⟩
      exact .lock_received hpc hfree
  | joining =>
      simp only [main_routine, hpc] at hstep
      split_ifs at hstep with hended
      rw [← Option.some.inj hstep]
      exact .joining hpc hended
  | join_doctor =>
      simp only [main_routine, hpc] at hstep
      split_ifs at hstep with hended
      rw [← Option.some.inj hstep]
      exact .join_doctor hpc hended
  -- The first of the two calls is followed by the second.
  | received call =>
      simp only [main_routine, hpc, Option.some.injEq] at hstep
      rw [← hstep]
      split_ifs with hcall
      · rw [hcall] at hpc
        exact .received_first hpc
      · exact .received hpc hcall
  | set_done call =>
      simp only [main_routine, hpc, Option.some.injEq] at hstep
      rw [← hstep]
      exact .set_done hpc
  | signal call =>
      simp only [main_routine, hpc, Option.some.injEq] at hstep
      rw [← hstep]
      exact .signal hpc
  | ended => simp [main_routine, hpc] at hstep

/-- A mutex that is free is had by no thread. -/
theorem holds_of_free {m : Mutex} (h : s.free m) (t : Thread patients pharmacists) :
    s.holds t m = false := by
  rcases h with ⟨hdoctor, hpatient, hpharmacist, hmain⟩
  cases t with
  | doctor => exact hdoctor
  | patient p => exact hpatient p
  | pharmacist j => exact hpharmacist j
  | main => exact hmain

/-- The doctor's steps leave the other threads where they are. -/
theorem doctor_frame (hstep : doctor_thread_routine s = some s') :
    s'.patient = s.patient ∧ s'.pharmacist = s.pharmacist ∧ s'.main = s.main ∧
      s'.all_patients_done = s.all_patients_done := by
  cases doctor_moves hstep <;> exact ⟨rfl, rfl, rfl, rfl⟩

/-- A step of a patient concerns nobody else's place and status, and of the
    rest of the state only the queue. -/
theorem patient_frame {p : Fin patients} (hstep : patient_thread_routine s p = some s') :
    (∃ pc, s'.patient = Function.update s.patient p pc) ∧
      (∃ status, s'.status = Function.update s.status p status) ∧
      s'.doctor = s.doctor ∧ s'.pharmacist = s.pharmacist ∧ s'.main = s.main ∧
      s'.all_patients_done = s.all_patients_done ∧ s'.medicine_count = s.medicine_count ∧
      s'.doctor_status = s.doctor_status := by
  have hsame : s.status = Function.update s.status p (s.status p) :=
    (Function.update_eq_self p s.status).symm
  cases patient_moves hstep with
  | arriving | walk | leave | announce | end_visit | finish =>
      exact ⟨⟨_, rfl⟩, ⟨_, rfl⟩, rfl, rfl, rfl, rfl, rfl, rfl⟩
  | _ => exact ⟨⟨_, rfl⟩, ⟨_, hsame⟩, rfl, rfl, rfl, rfl, rfl, rfl⟩

/-- A pharmacist's step concerns nobody else's place, and of the rest of the
    state only what pharmacists write. -/
theorem pharmacist_frame {j : Fin pharmacists} (hstep : pharmacist_thread_routine s j = some s') :
    (∃ pc, s'.pharmacist = Function.update s.pharmacist j pc) ∧ s'.doctor = s.doctor ∧
      s'.patient = s.patient ∧ s'.main = s.main ∧ s'.status = s.status ∧
      s'.patient_queue = s.patient_queue ∧ s'.medicine_count = s.medicine_count ∧
      s'.all_patients_done = s.all_patients_done := by
  cases pharmacist_moves hstep <;> exact ⟨⟨_, rfl⟩, rfl, rfl, rfl, rfl, rfl, rfl, rfl⟩

/-- The main thread's steps concern its own place, the flag it sets and the
    status of the medicine. -/
theorem main_frame (hstep : main_routine s = some s') :
    s'.doctor = s.doctor ∧ s'.patient = s.patient ∧ s'.pharmacist = s.pharmacist ∧
      s'.status = s.status ∧ s'.patient_queue = s.patient_queue ∧
      s'.medicine_count = s.medicine_count := by
  cases main_moves hstep <;> exact ⟨rfl, rfl, rfl, rfl, rfl, rfl⟩

/-- The doctor gets a mutex only by locking it. -/
theorem doctor_holds (hstep : doctor_thread_routine s = some s') (m : Mutex)
    (hm : s'.doctor.holds m = true) :
    s.doctor.holds m = true ∨ s.doctor.wants = some m ∧ s.free m := by
  cases doctor_moves hstep with
  | lock hpc hfree | relock hpc hfree | lock_medicine hpc hfree | lock_count hpc hfree
  | lock_pop hpc hfree | lock_consume hpc hfree | lock_refill hpc hfree
  -- Whichever way it goes on, it goes on with the mutex of the queue.
  | lock_treat hpc hfree | lock_treat_nobody hpc hfree =>
      cases m <;> simp_all [DoctorPc.holds, DoctorPc.wants]
  | _ => cases m <;> simp_all [DoctorPc.holds]

theorem patient_holds {p : Fin patients} (hstep : patient_thread_routine s p = some s')
    (m : Mutex) (hm : (s'.patient p).holds m = true) :
    (s.patient p).holds m = true ∨ (s.patient p).wants = some m ∧ s.free m := by
  cases patient_moves hstep with
  | lock_add hpc hfree | lock_count hpc hfree | lock_doctor hpc hfree =>
      cases m <;> simp_all [PatientPc.holds, PatientPc.wants, State.setPatient]
  | _ => cases m <;> simp_all [PatientPc.holds, State.setPatient]

theorem pharmacist_holds {j : Fin pharmacists} (hstep : pharmacist_thread_routine s j = some s')
    (m : Mutex) (hm : (s'.pharmacist j).holds m = true) :
    (s.pharmacist j).holds m = true ∨ (s.pharmacist j).wants = some m ∧ s.free m := by
  cases pharmacist_moves hstep with
  | lock hpc hfree | pause hpc hfree | summon hpc hfree | lock_wait hpc hfree | relock hpc hfree
  | lock_leave hpc hfree =>
      cases m <;> simp_all [PharmacistPc.holds, PharmacistPc.wants, State.setPharmacist]
  -- The mutex of the medicine is had already at these two places.
  | full hpc | all_done hpc | few hpc | enough hpc =>
      cases m <;> simp_all [PharmacistPc.holds, State.setPharmacist] <;>
        rcases hpc with hpc | hpc <;> simp_all
  | _ => cases m <;> simp_all [PharmacistPc.holds, State.setPharmacist]

theorem main_holds (hstep : main_routine s = some s') (m : Mutex)
    (hm : s'.main.holds m = true) :
    s.main.holds m = true ∨ s.main.wants = some m ∧ s.free m := by
  cases main_moves hstep with
  | lock_done hpc hfree | lock_signal hpc hfree | lock_received hpc hfree =>
      cases m <;> simp_all [MainPc.holds, MainPc.wants]
  | _ => cases m <;> simp_all [MainPc.holds]

/-- Whoever has a mutex after a step had it before, or has locked it in the
    step, when nobody had it. -/
theorem step_holds {t : Thread patients pharmacists} (hstep : step s t = some s')
    (u : Thread patients pharmacists) (m : Mutex) (hm : s'.holds u m = true) :
    s.holds u m = true ∨ u = t ∧ s.free m := by
  cases t with
  | doctor =>
      rcases doctor_frame hstep with ⟨hpatient, hpharmacist, hmain, _⟩
      cases u with
      | doctor => exact (doctor_holds hstep m hm).imp_right fun h => ⟨rfl, h.2⟩
      | patient q => exact Or.inl (by rw [State.holds, hpatient] at hm; exact hm)
      | pharmacist j => exact Or.inl (by rw [State.holds, hpharmacist] at hm; exact hm)
      | main => exact Or.inl (by rw [State.holds, hmain] at hm; exact hm)
  | patient p =>
      rcases patient_frame hstep with ⟨⟨pc, hpatient⟩, _, hdoctor, hpharmacist, hmain, _⟩
      cases u with
      | doctor => exact Or.inl (by rw [State.holds, hdoctor] at hm; exact hm)
      | patient q =>
          by_cases hq : q = p
          · rw [hq] at hm ⊢
            exact (patient_holds hstep m hm).imp_right fun h => ⟨rfl, h.2⟩
          · rw [State.holds, hpatient, Function.update_of_ne hq] at hm
            exact Or.inl hm
      | pharmacist j => exact Or.inl (by rw [State.holds, hpharmacist] at hm; exact hm)
      | main => exact Or.inl (by rw [State.holds, hmain] at hm; exact hm)
  | pharmacist j =>
      rcases pharmacist_frame hstep with ⟨⟨pc, hpharmacist⟩, hdoctor, hpatient, hmain, _⟩
      cases u with
      | doctor => exact Or.inl (by rw [State.holds, hdoctor] at hm; exact hm)
      | patient q => exact Or.inl (by rw [State.holds, hpatient] at hm; exact hm)
      | pharmacist k =>
          by_cases hk : k = j
          · rw [hk] at hm ⊢
            exact (pharmacist_holds hstep m hm).imp_right fun h => ⟨rfl, h.2⟩
          · rw [State.holds, hpharmacist, Function.update_of_ne hk] at hm
            exact Or.inl hm
      | main => exact Or.inl (by rw [State.holds, hmain] at hm; exact hm)
  | main =>
      rcases main_frame hstep with ⟨hdoctor, hpatient, hpharmacist, _⟩
      cases u with
      | doctor => exact Or.inl (by rw [State.holds, hdoctor] at hm; exact hm)
      | patient q => exact Or.inl (by rw [State.holds, hpatient] at hm; exact hm)
      | pharmacist j => exact Or.inl (by rw [State.holds, hpharmacist] at hm; exact hm)
      | main => exact (main_holds hstep m hm).imp_right fun h => ⟨rfl, h.2⟩

/-- No mutex is had by two threads. -/
def Exclusive (s : State patients pharmacists) : Prop :=
  ∀ t u m, s.holds t m = true → s.holds u m = true → t = u

theorem exclusive_init (medicine_status : MedicineStatus) :
    Exclusive (clinic_init patients pharmacists medicine_status) := by
  intro t u m ht
  -- At the beginning no thread has a mutex.
  cases t <;> cases m <;> exact absurd ht Bool.false_ne_true

theorem exclusive_step (h : Exclusive s) {t : Thread patients pharmacists}
    (hstep : step s t = some s') : Exclusive s' := by
  intro u v m hu hv
  rcases step_holds hstep u m hu with hu | ⟨hut, hfree⟩
  · rcases step_holds hstep v m hv with hv | ⟨_, hfree⟩
    · exact h u v m hu hv
    · -- A mutex somebody has cannot be locked.
      rw [holds_of_free hfree u] at hu
      exact absurd hu Bool.false_ne_true
  · rcases step_holds hstep v m hv with hv | ⟨hvt, _⟩
    · rw [holds_of_free hfree v] at hv
      exact absurd hv Bool.false_ne_true
    · exact hut.trans hvt.symm

end Locks

end Lab9

end OsLabs
