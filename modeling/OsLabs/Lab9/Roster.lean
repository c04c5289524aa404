import Mathlib.Data.List.Nodup
import Mathlib.Data.List.ReduceOption
import OsLabs.Lab9.Clinic

/-!
# Who Is in the Waiting Room

The patients in the queue, and those the doctor has taken from it and not yet
turned to. A patient is in one of the two from its addition until its treatment
begins, never twice, and its thread is then between the addition and the loop
that waits. The one the doctor is treating is in neither: it has been taken, and
nobody can be added as long as the treatment lasts, since the doctor has the
mutex of the queue.

This holds in every run, whatever the queue does. Where it overruns, patients
are lost from it, and the rest is as it was.

## Main definitions

* `DoctorPc.untreated`: The patients taken and still to be treated.
* `PatientPc.awaits`: Where a patient's thread is from the announcement to the
  treatment.
* `Inside`: A patient has been added and waits for its treatment.
* `Roster`: The patients in the waiting room and at the doctor's.
* `OnRoster`: The queue holds some patients, and they are on the roster.
* `InOrder`: The mutexes and the roster are in order.

## Theorems

* `doctor_roster`: What a step of the doctor does to the patients.
* `Roster.of_sublist`: What is left of a roster is one.
* `onRoster_doctor`, `onRoster_patient`: One step.
-/

namespace OsLabs

namespace Lab9

/-- The patients taken from the queue and still to be treated. -/
def DoctorPc.untreated {patients : Nat} : DoctorPc patients → List (Fin patients)
  | .drain batch => batch.reduceOption
  | .lock_pop batch => batch.reduceOption
  | .pop batch => batch.reduceOption
  | .lock_treat batch => batch.reduceOption
  | .lock_consume batch => batch.reduceOption
  | .consume batch => batch.reduceOption
  | .treat rest => rest.reduceOption
  | .treating _ rest => rest.reduceOption
  | _ => []

/-- From the announcement to the end of the loop that waits. -/
def PatientPc.awaits : PatientPc → Bool
  | .lock_count => true
  | .count => true
  | .check _ => true
  | .lock_doctor => true
  | .wake => true
  | .waiting => true
  | .asleep => true
  | _ => false

section Rosters

variable {patients pharmacists : Nat} {s s' : State patients pharmacists}
  {l l' : List (Fin patients)}

/-- The patient has been added to the queue and waits for its treatment. -/
def Inside (s : State patients pharmacists) (p : Fin patients) : Prop :=
  s.patient p = .announce ∨ (s.patient p).awaits = true ∧ s.status p = .QUEUE

/-- The patients in the queue, and those the doctor has taken and not yet
    treated, are different patients, all of them inside, and none of them is
    being treated. -/
structure Roster (s : State patients pharmacists) (l : List (Fin patients)) : Prop where
  nodup : (s.doctor.untreated ++ l).Nodup
  inside : ∀ p ∈ s.doctor.untreated ++ l, Inside s p
  apart : ∀ p rest, s.doctor = .treating p rest → p ∉ s.doctor.untreated ++ l

/-- The queue holds patients, and they are on the roster. -/
def OnRoster (s : State patients pharmacists) : Prop :=
  ∃ h l, Holds s.patient_queue h l ∧ Roster s l

/-- What is left of a roster is one, if those left stay inside. -/
theorem Roster.of_sublist (h : Roster s l)
    (hsub : (s'.doctor.untreated ++ l').Sublist (s.doctor.untreated ++ l))
    (hinside : ∀ p ∈ s'.doctor.untreated ++ l', Inside s p → Inside s' p)
    (hapart : ∀ p rest, s'.doctor = .treating p rest → p ∉ s'.doctor.untreated ++ l') :
    Roster s' l' where
  nodup := h.nodup.sublist hsub
  inside p hp := hinside p hp (h.inside p (hsub.subset hp))
  apart := hapart

/-- What a step of the doctor does to the patients: nothing, unless it takes
    one from the queue or begins or ends a treatment. -/
theorem doctor_roster (hstep : doctor_thread_routine s = some s') :
    (s'.patient_queue = s.patient_queue ∧ s'.status = s.status ∧
        s'.doctor.untreated.Sublist s.doctor.untreated ∧ (∀ p rest, s.doctor ≠ .treating p rest) ∧
        ∀ p rest, s'.doctor ≠ .treating p rest) ∨
      (∃ batch, s.doctor = .pop batch ∧ s'.patient_queue = (queue_pop s.patient_queue).1 ∧
        s'.status = s.status ∧
        s'.doctor = if batch.length < CLINIC_QUEUE_SIZE then
            .drain (batch ++ [(queue_pop s.patient_queue).2]) else .overrun) ∨
      (∃ p rest, s.doctor = .treat (some p :: rest) ∧ s'.doctor = .treating p rest ∧
        s'.patient_queue = s.patient_queue ∧
        s'.status = Function.update s.status p .TREATMENT) ∨
      ∃ p rest, s.doctor = .treating p rest ∧ s'.doctor = .treat rest ∧
        s'.patient_queue = s.patient_queue ∧ s'.status = Function.update s.status p .GONE := by
  cases doctor_moves hstep with
  | @pop batch hpc hroom => exact Or.inr (Or.inl ⟨batch, hpc, rfl, rfl, (if_pos hroom).symm⟩)
  | @pop_overrun batch hpc hroom =>
      exact Or.inr (Or.inl ⟨batch, hpc, rfl, rfl, (if_neg hroom).symm⟩)
  | @treat p rest hpc => exact Or.inr (Or.inr (Or.inl ⟨p, rest, hpc, rfl, rfl, rfl⟩))
  | @treating p rest hpc => exact Or.inr (Or.inr (Or.inr ⟨p, rest, hpc, rfl, rfl, rfl⟩))
  | lock_treat_nobody hpc =>
      rw [hpc]
      exact Or.inl ⟨rfl, rfl, List.nil_sublist _, (fun _ _ h => by cases h), fun _ _ h => by cases h⟩
  -- The entries past the first `count` are not looked at.
  | @consume batch hpc =>
      rw [hpc]
      exact Or.inl ⟨rfl, rfl, (List.take_sublist _ batch).filterMap id,
        (fun _ _ h => by cases h), fun _ _ h => by cases h⟩
  | _ hpc =>
      rw [hpc]
      exact Or.inl ⟨rfl, rfl, List.Sublist.refl _, (fun _ _ h => by cases h),
        fun _ _ h => by cases h⟩

/-- A step of the doctor that does not take a patient leaves the roster of the
    queue in order. -/
theorem onRoster_doctor (h : OnRoster s) (hstep : doctor_thread_routine s = some s') :
    OnRoster s' := by
  rcases h with ⟨n, l, hq, hr⟩
  rcases doctor_frame hstep with ⟨hpatient, _⟩
  rcases doctor_roster hstep with ⟨hqueue, hstatus, hsub, _, hnot⟩ |
    ⟨batch, hpc, hqueue, hstatus, hpc'⟩ | ⟨p, rest, hpc, hpc', hqueue, hstatus⟩ |
    ⟨p, rest, hpc, hpc', hqueue, hstatus⟩
  -- The queue stays, and the doctor has the same patients or fewer.
  · refine ⟨n, l, by rw [hqueue]; exact hq, hr.of_sublist (hsub.append_right l) ?_ ?_⟩
    · intro p _ hp
      rwa [Inside, hpatient, hstatus]
    · exact fun p rest hp => absurd hp (hnot p rest)
  · -- What is popped goes from the one end of the queue to the other of the batch.
    have hunt : s.doctor.untreated = batch.reduceOption := by rw [hpc]; rfl
    have hmove : ∃ n' l', Holds s'.patient_queue n' l' ∧
        (s'.doctor.untreated ++ l').Sublist (s.doctor.untreated ++ l) := by
      rw [hqueue, hpc', hunt]
      rcases l with _ | ⟨p, l⟩
      · rw [holds_pop_nil hq]
        refine ⟨n, [], hq, ?_⟩
        split_ifs
        · simp [DoctorPc.untreated, List.reduceOption_append]
        · exact List.nil_sublist _
      · rcases holds_pop hq with ⟨hp, hrest⟩
        refine ⟨n + 1, l, hrest, ?_⟩
        rw [hp]
        split_ifs
        · simp [DoctorPc.untreated, List.reduceOption_append]
        · exact (List.sublist_cons_self p l).trans (List.sublist_append_right _ _)
    rcases hmove with ⟨n', l', hq', hsub⟩
    refine ⟨n', l', hq', hr.of_sublist hsub ?_ ?_⟩
    · intro p _ hp
      rwa [Inside, hpatient, hstatus]
    · intro p rest hp
      rw [hpc'] at hp
      split_ifs at hp
  · -- The patient whose treatment begins was there once, and so is not any more.
    have hunt : s.doctor.untreated = p :: rest.reduceOption := by rw [hpc]; rfl
    have hunt' : s'.doctor.untreated = rest.reduceOption := by rw [hpc']; rfl
    have hnodup := hr.nodup
    rw [hunt, List.cons_append, List.nodup_cons] at hnodup
    refine ⟨n, l, by rw [hqueue]; exact hq, hr.of_sublist ?_ ?_ ?_⟩
    · rw [hunt, hunt', List.cons_append]
      exact List.sublist_cons_self _ _
    · intro q hq hin
      rw [hunt'] at hq
      have hne : q ≠ p := fun heq => hnodup.1 (heq ▸ hq)
      rwa [Inside, hpatient, hstatus, Function.update_of_ne hne]
    · intro q rest' hq
      rw [hpc', DoctorPc.treating.injEq] at hq
      rw [hunt', ← hq.1]
      exact hnodup.1
  -- The patient whose treatment ends was on no list.
  · have hunt : s'.doctor.untreated = s.doctor.untreated := by rw [hpc, hpc']; rfl
    refine ⟨n, l, by rw [hqueue]; exact hq, hr.of_sublist ?_ ?_ ?_⟩
    · rw [hunt]
    · intro q hq hin
      rw [hunt] at hq
      have hne : q ≠ p := fun heq => hr.apart p rest hpc (heq ▸ hq)
      rwa [Inside, hpatient, hstatus, Function.update_of_ne hne]
    · intro q rest' hq
      rw [hpc'] at hq
      cases hq

/-- The queue changes with a patient's step only where the patient adds
    itself. -/
theorem patient_queue_step {p : Fin patients} (hstep : patient_thread_routine s p = some s') :
    (s.patient p ≠ .add ∧ s'.patient_queue = s.patient_queue) ∨
      s.patient p = .add ∧ s'.patient_queue = (queue_add s.patient_queue (some p)).1 ∧
        s'.patient p = if (queue_add s.patient_queue (some p)).2 = -1 then .walk else .announce := by
  cases patient_moves hstep with
  | add hpc hadded =>
      exact Or.inr ⟨hpc, rfl, (Function.update_self ..).trans (if_neg hadded).symm⟩
  | add_refused hpc hrefused =>
      exact Or.inr ⟨hpc, rfl, (Function.update_self ..).trans (if_pos hrefused).symm⟩
  | _ hpc => exact Or.inl ⟨by simp [hpc], rfl⟩

/-- A patient who is inside stays there until the doctor turns to it. -/
theorem inside_patient {p : Fin patients} (h : Inside s p)
    (hstep : patient_thread_routine s p = some s') : Inside s' p := by
  rcases h with hpc | ⟨haw, hqueue⟩
  · simp only [patient_thread_routine, hpc, Option.some.injEq] at hstep
    rw [← hstep]
    refine Or.inr ⟨?_, Function.update_self ..⟩
    simp only [State.setPatient, Function.update_self]
    rfl
  · right
    -- With the status `QUEUE` no step leaves these places.
    cases patient_moves hstep with
    | lock_count | count | check | check_waiting | lock_doctor | wake | waiting | asleep =>
        exact ⟨by simp only [State.setPatient, Function.update_self]; rfl, hqueue⟩
    | waiting_over hpc hstatus => exact absurd hqueue hstatus
    | asleep_treated hpc hstatus => simp [hqueue] at hstatus
    | _ hpc =>
        rw [hpc] at haw
        cases haw

/-- Whoever else is inside stays inside too. -/
theorem inside_of_patient {p q : Fin patients} (h : Inside s q)
    (hstep : patient_thread_routine s p = some s') : Inside s' q := by
  by_cases hq : q = p
  · rw [hq] at h ⊢
    exact inside_patient h hstep
  · rcases patient_frame hstep with ⟨⟨pc, hpatient⟩, ⟨status, hstatus⟩, _⟩
    rwa [Inside, hpatient, hstatus, Function.update_of_ne hq, Function.update_of_ne hq]

theorem onRoster_patient {p : Fin patients} (hexcl : Exclusive s) (h : OnRoster s)
    (hstep : patient_thread_routine s p = some s') : OnRoster s' := by
  rcases h with ⟨n, l, hq, hr⟩
  have hdoctor : s'.doctor = s.doctor := (patient_frame hstep).2.2.1
  have hunt : s'.doctor.untreated = s.doctor.untreated := by rw [hdoctor]
  have hkeep : ∀ q, Inside s q → Inside s' q := fun q h => inside_of_patient h hstep
  -- What is left of the queue, without anybody new, is as it was.
  have hless : ∀ l', List.Sublist l' l → Roster s' l' := by
    intro l' hsub
    have hall : (s'.doctor.untreated ++ l').Sublist (s.doctor.untreated ++ l) := by
      rw [hunt]
      exact hsub.append_left _
    refine hr.of_sublist hall (fun q _ => hkeep q) fun q rest hq hmem => ?_
    exact hr.apart q rest (by rw [← hdoctor]; exact hq) (hall.subset hmem)
  rcases patient_queue_step hstep with ⟨_, hqueue⟩ | ⟨hpc, hqueue, hpc'⟩
  · exact ⟨n, l, by rw [hqueue]; exact hq, hless l (List.Sublist.refl l)⟩
  -- The queue takes the patient, or refuses it, or overruns and keeps the first only.
  rcases holds_add_cases hq p with ⟨hres, hnew⟩ | hrefused | ⟨_, _, hnew⟩
  · -- The new patient was not inside, and nobody is being treated now.
    rw [← hqueue] at hnew
    have hout : p ∉ s.doctor.untreated ++ l := by
      intro hmem
      rcases hr.inside p hmem with hann | ⟨haw, _⟩
      · rw [hpc] at hann
        cases hann
      · rw [hpc] at haw
        cases haw
    have hidle : ∀ q rest, s'.doctor ≠ .treating q rest := by
      intro q rest hq
      have hpat : s.holds (.patient p) .queue = true := by rw [State.holds, hpc]; rfl
      have hdoc : s.holds .doctor .queue = true := by rw [State.holds, ← hdoctor, hq]; rfl
      cases hexcl _ _ _ hpat hdoc
    refine ⟨n, l ++ [p], hnew, ?_, ?_, fun q rest hq => absurd hq (hidle q rest)⟩
    · rw [hunt, ← List.append_assoc, List.nodup_append_comm, List.singleton_append,
        List.nodup_cons]
      exact ⟨hout, hr.nodup⟩
    · intro q hmem
      rw [hunt, ← List.append_assoc, List.mem_append, List.mem_singleton] at hmem
      rcases hmem with hmem | hqp
      · exact hkeep q (hr.inside q hmem)
      · left
        rw [hqp, hpc', hres]
        rfl
  · exact ⟨n, l, by rw [hqueue, hrefused]; exact hq, hless l (List.Sublist.refl l)⟩
  · rw [← hqueue] at hnew
    exact ⟨n, l.take 1, hnew, hless _ (List.take_sublist 1 l)⟩

/-- The other threads do nothing to patients. -/
theorem OnRoster.congr (h : OnRoster s) (hqueue : s'.patient_queue = s.patient_queue)
    (hdoctor : s'.doctor = s.doctor) (hpatient : s'.patient = s.patient)
    (hstatus : s'.status = s.status) : OnRoster s' := by
  rcases h with ⟨n, l, hq, hr⟩
  refine ⟨n, l, by rw [hqueue]; exact hq, hr.of_sublist ?_ ?_ ?_⟩
  · rw [hdoctor]
  · intro p _ hp
    rwa [Inside, hpatient, hstatus]
  · intro p rest hp
    rw [hdoctor] at hp ⊢
    exact hr.apart p rest hp

theorem onRoster_step {t : Thread patients pharmacists} (hexcl : Exclusive s) (h : OnRoster s)
    (hstep : step s t = some s') : OnRoster s' := by
  cases t with
  | doctor => exact onRoster_doctor h hstep
  | patient p => exact onRoster_patient hexcl h hstep
  | pharmacist j =>
      rcases pharmacist_frame hstep with ⟨_, hdoctor, hpatient, _, hstatus, hqueue, _⟩
      exact h.congr hqueue hdoctor hpatient hstatus
  | main =>
      rcases main_frame hstep with ⟨hdoctor, hpatient, _, hstatus, hqueue, _⟩
      exact h.congr hqueue hdoctor hpatient hstatus

theorem onRoster_init (medicine_status : MedicineStatus) :
    OnRoster (clinic_init patients pharmacists medicine_status) :=
  ⟨0, [], holds_init, List.nodup_nil, (fun _ h => by cases h), fun _ _ h => by cases h⟩

/-- The mutexes and the roster are in order. -/
structure InOrder (s : State patients pharmacists) : Prop where
  exclusive : Exclusive s
  roster : OnRoster s

theorem inOrder_init (medicine_status : MedicineStatus) :
    InOrder (clinic_init patients pharmacists medicine_status) :=
  ⟨exclusive_init medicine_status, onRoster_init medicine_status⟩

theorem InOrder.step (h : InOrder s) {t : Thread patients pharmacists}
    (hstep : step s t = some s') : InOrder s' :=
  ⟨exclusive_step h.exclusive hstep, onRoster_step h.exclusive h.roster hstep⟩

end Rosters

end Lab9

end OsLabs
