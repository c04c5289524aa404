import OsLabs.Lab9.Roster

/-!
# The Status of a Patient

A patient's status is written by two threads, its own and the doctor's, without
a mutex. From the beginning of its treatment on it should only go forward, from
`TREATMENT` to `GONE`, and the loop in which the patient waits relies on that.

Two things can turn it back. The patient is in the queue before it has announced
itself, so the doctor can take it and begin the treatment before the patient
writes `QUEUE`. And the loop that waits looks for `TREATMENT` only after it has
slept: a patient who finds at the condition of the loop that its status has
changed goes round the outer loop once more, where `TREATMENT` is as good as any
status but `GONE`, and enters the waiting room a second time.

In every other run the status goes forward only. The doctor turns to patients
who are inside (`Roster`), so a treatment begins in the loop that waits or on
the way to it, and from there a treated patient comes to its end without writing
anything but `GONE`.

## Main definitions

* `PatientPc.late`, `PatientPc.over`: Where a patient's thread is during its
  treatment, and where else after it.
* `DoctorPc.turnsTo`: The patient the doctor is turning to.
* `Timely`: No treatment begins before the announcement, and no patient begins
  again during its treatment.
* `Settled`: What the status of a treated patient says about the threads.
* `Leaves`: A patient's thread can come to its end.

## Theorems

* `patient_treated`, `patient_gone`: A step of a treated patient.
* `settled_doctor`, `settled_patient`: One step.
* `leaves_of_treated`: A treated patient can leave.
* `status_goes_forward`: Any run.
* `status_goes_forward_run`: A run with a treatment.
* `announced_during_treatment`: A patient who announces itself too late.
-/

namespace OsLabs

namespace Lab9

/-- Where a patient's thread may be when its treatment has begun. -/
def PatientPc.late (pc : PatientPc) : Bool :=
  pc.awaits || pc = .spin || pc = .exit || pc = .test

/-- Where else it may be when its status is `GONE`. -/
def PatientPc.over (pc : PatientPc) : Bool :=
  pc = .end_visit || pc = .finish || pc = .ended

/-- The patient whose treatment begins with the doctor's next step. -/
def DoctorPc.turnsTo {patients : Nat} : DoctorPc patients → Option (Fin patients)
  | .treat (some p :: _) => some p
  | _ => none

section Status

variable {patients pharmacists : Nat} {s s' t : State patients pharmacists}

/-- The doctor does not turn to a patient who has not announced itself, and no
    patient is at the condition of its outer loop while it is treated. -/
def Timely (s : State patients pharmacists) : Thread patients pharmacists → Prop
  | .doctor => ∀ p, s.doctor.turnsTo = some p → s.patient p ≠ .announce
  | .patient p => s.patient p = .test → s.status p ≠ .TREATMENT
  | .pharmacist _ => True
  | .main => True

/-- The one patient with the status `TREATMENT` is the one the doctor treats,
    and the threads of treated patients are past their announcement. -/
structure Settled (s : State patients pharmacists) : Prop where
  treated : ∀ p, s.status p = .TREATMENT →
    (∃ rest, s.doctor = .treating p rest) ∧ (s.patient p).late = true
  treating : ∀ p rest, s.doctor = .treating p rest → s.status p = .TREATMENT
  gone : ∀ p, s.status p = .GONE → ((s.patient p).late || (s.patient p).over) = true

/-- During its treatment a patient changes nothing but its place. -/
theorem patient_treated {p : Fin patients} (hok : Timely s (.patient p))
    (htreat : s.status p = .TREATMENT) (hlate : (s.patient p).late = true)
    (hstep : patient_thread_routine s p = some s') :
    s'.status p = .TREATMENT ∧ (s'.patient p).late = true := by
  cases patient_moves hstep with
  | lock_count | lock_doctor | count | wake | check | check_waiting | waiting_over | asleep_treated
  | spin | exit =>
      refine ⟨htreat, ?_⟩
      simp only [State.setPatient, Function.update_self]
      rfl
  -- Here the patient would go round the outer loop during its treatment.
  | test hpc => exact absurd htreat (hok hpc)
  -- The other ways on are those of another status.
  | test_gone hpc hstatus | exit_gone hpc hstatus | waiting hpc hstatus =>
      rw [htreat] at hstatus
      cases hstatus
  | asleep hpc hstatus | spin_over hpc hstatus => exact absurd htreat hstatus
  | _ hpc =>
      rw [hpc] at hlate
      cases hlate

/-- Afterwards it writes nothing but `GONE`. -/
theorem patient_gone {p : Fin patients} (hgone : s.status p = .GONE)
    (hpast : ((s.patient p).late || (s.patient p).over) = true)
    (hstep : patient_thread_routine s p = some s') :
    s'.status p = .GONE ∧ ((s'.patient p).late || (s'.patient p).over) = true := by
  cases patient_moves hstep with
  | lock_count | lock_doctor | count | wake | check | check_waiting | waiting_over | asleep
  | spin_over | exit_gone | test_gone =>
      refine ⟨hgone, ?_⟩
      simp only [State.setPatient, Function.update_self]
      rfl
  -- The two places that write the status write `GONE` again.
  | end_visit | finish =>
      refine ⟨Function.update_self .., ?_⟩
      simp only [State.setPatient, Function.update_self]
      rfl
  -- The other ways on are those of another status.
  | waiting hpc hstatus | asleep_treated hpc hstatus | spin hpc hstatus =>
      rw [hgone] at hstatus
      cases hstatus
  | test hpc hstatus | exit hpc hstatus => exact absurd hgone hstatus
  | _ hpc =>
      rw [hpc] at hpast
      cases hpast

/-- A patient does not begin its own treatment, and where it writes `GONE` it is
    at the end of its visit. -/
theorem patient_writes {p : Fin patients} (hstep : patient_thread_routine s p = some s') :
    (s'.status p = .TREATMENT → s.status p = .TREATMENT) ∧
      (s'.status p = .GONE → s.status p = .GONE ∨
        ((s'.patient p).late || (s'.patient p).over) = true) := by
  cases patient_moves hstep with
  -- Of the six places that write the status three write something else.
  | arriving | walk | announce => simp [State.setPatient, State.setStatus]
  | leave | end_visit | finish =>
      simp [State.setPatient, State.setStatus, PatientPc.late, PatientPc.over]
  | _ => exact ⟨id, Or.inl⟩

/-- Under the condition the doctor begins the treatment of patients who wait. -/
theorem treated_waits (h : InOrder s) {p : Fin patients} {rest : List (Option (Fin patients))}
    (hpc : s.doctor = .treat (some p :: rest)) (hok : s.patient p ≠ .announce) :
    (s.patient p).awaits = true ∧ s.status p = .QUEUE := by
  rcases h.roster with ⟨_, l, _, hr⟩
  have hunt : s.doctor.untreated = p :: rest.reduceOption := by rw [hpc]; rfl
  have hmem : p ∈ s.doctor.untreated ++ l := by
    rw [hunt]
    exact List.mem_append_left l List.mem_cons_self
  exact (hr.inside p hmem).resolve_left hok

/-- Where the doctor treats nobody, before and after, nothing is at stake. -/
theorem Settled.idle (h : Settled s) (hpatient : s'.patient = s.patient)
    (hstatus : s'.status = s.status) (hbefore : ∀ p rest, s.doctor ≠ .treating p rest)
    (hafter : ∀ p rest, s'.doctor ≠ .treating p rest) : Settled s' where
  treated p hp := by
    rw [hstatus] at hp
    rcases (h.treated p hp).1 with ⟨rest, hrest⟩
    exact absurd hrest (hbefore p rest)
  treating p rest hp := absurd hp (hafter p rest)
  gone p hp := by
    rw [hstatus] at hp
    rw [hpatient]
    exact h.gone p hp

theorem settled_doctor (hin : InOrder s) (h : Settled s) (hok : Timely s .doctor)
    (hstep : doctor_thread_routine s = some s') : Settled s' := by
  rcases doctor_frame hstep with ⟨hpatient, _⟩
  rcases doctor_roster hstep with ⟨_, hstatus, _, hbefore, hafter⟩ |
    ⟨batch, hpc, _, hstatus, hpc'⟩ | ⟨p, rest, hpc, hpc', _, hstatus⟩ |
    ⟨p, rest, hpc, hpc', _, hstatus⟩
  · exact h.idle hpatient hstatus hbefore hafter
  · -- Neither before nor after it takes a patient does the doctor treat one.
    refine h.idle hpatient hstatus (fun q rest hq => ?_) fun q rest hq => ?_
    · rw [hpc] at hq
      cases hq
    · rw [hpc'] at hq
      split_ifs at hq
  · -- The treatment of `p` begins, where nobody was treated.
    have hlate : (s.patient p).late = true := by
      have haw := (treated_waits hin hpc (hok p (by rw [hpc]; rfl))).1
      rw [PatientPc.late, haw]
      rfl
    -- It is the only treatment, since another one would have been under way before.
    refine ⟨fun q hq => ?_, fun q rest' hq => ?_, fun q hq => ?_⟩
    · by_cases hqp : q = p
      · rw [hqp, hpatient]
        exact ⟨⟨rest, hpc'⟩, hlate⟩
      · rw [hstatus, Function.update_of_ne hqp] at hq
        rcases (h.treated q hq).1 with ⟨rest', hrest⟩
        rw [hpc] at hrest
        cases hrest
    · rw [hpc', DoctorPc.treating.injEq] at hq
      rw [hstatus, hq.1, Function.update_self]
    · by_cases hqp : q = p
      · rw [hqp, hstatus, Function.update_self] at hq
        cases hq
      · rw [hstatus, Function.update_of_ne hqp] at hq
        rw [hpatient]
        exact h.gone q hq
  · -- The treatment of `p` ends, and it was the only one.
    refine ⟨fun q hq => ?_, fun q rest' hq => ?_, fun q hq => ?_⟩
    · by_cases hqp : q = p
      · rw [hqp, hstatus, Function.update_self] at hq
        cases hq
      · rw [hstatus, Function.update_of_ne hqp] at hq
        rcases (h.treated q hq).1 with ⟨rest', hrest⟩
        rw [hpc, DoctorPc.treating.injEq] at hrest
        exact absurd hrest.1.symm hqp
    · rw [hpc'] at hq
      cases hq
    · rw [hpatient]
      by_cases hqp : q = p
      · rw [hqp, (h.treated p (h.treating p rest hpc)).2]
        rfl
      · rw [hstatus, Function.update_of_ne hqp] at hq
        exact h.gone q hq

theorem settled_patient {p : Fin patients} (h : Settled s) (hok : Timely s (.patient p))
    (hstep : patient_thread_routine s p = some s') : Settled s' := by
  rcases patient_frame hstep with ⟨⟨pc, hpatient⟩, ⟨status, hstatus⟩, hdoctor, _⟩
  rcases patient_writes hstep with ⟨htreat, hgone⟩
  refine ⟨fun q hq => ?_, fun q rest hq => ?_, fun q hq => ?_⟩
  · rw [hdoctor]
    by_cases hqp : q = p
    · rw [hqp] at hq ⊢
      rcases h.treated p (htreat hq) with ⟨hdoc, hlate⟩
      exact ⟨hdoc, (patient_treated hok (htreat hq) hlate hstep).2⟩
    · rw [hstatus, Function.update_of_ne hqp] at hq
      rw [hpatient, Function.update_of_ne hqp]
      exact h.treated q hq
  · rw [hdoctor] at hq
    have hold := h.treating q rest hq
    by_cases hqp : q = p
    · rw [hqp] at hold ⊢
      exact (patient_treated hok hold (h.treated p hold).2 hstep).1
    · rw [hstatus, Function.update_of_ne hqp]
      exact hold
  · by_cases hqp : q = p
    · rw [hqp] at hq ⊢
      rcases hgone hq with hold | hpast
      · exact (patient_gone hold (h.gone p hold) hstep).2
      · exact hpast
    · rw [hstatus, Function.update_of_ne hqp] at hq
      rw [hpatient, Function.update_of_ne hqp]
      exact h.gone q hq

theorem Settled.congr (h : Settled s) (hdoctor : s'.doctor = s.doctor)
    (hpatient : s'.patient = s.patient) (hstatus : s'.status = s.status) : Settled s' where
  treated p hp := by
    rw [hstatus] at hp
    rw [hdoctor, hpatient]
    exact h.treated p hp
  treating p rest hp := by
    rw [hdoctor] at hp
    rw [hstatus]
    exact h.treating p rest hp
  gone p hp := by
    rw [hstatus] at hp
    rw [hpatient]
    exact h.gone p hp

theorem settled_step {x : Thread patients pharmacists} (hin : InOrder s) (h : Settled s)
    (hok : Timely s x) (hstep : step s x = some s') : Settled s' := by
  cases x with
  | doctor => exact settled_doctor hin h hok hstep
  | patient p => exact settled_patient h hok hstep
  | pharmacist j =>
      rcases pharmacist_frame hstep with ⟨_, hdoctor, hpatient, _, hstatus, _⟩
      exact h.congr hdoctor hpatient hstatus
  | main =>
      rcases main_frame hstep with ⟨hdoctor, hpatient, _, hstatus, _⟩
      exact h.congr hdoctor hpatient hstatus

/-- What is in order and settled at the beginning stays so, step by step. -/
theorem settled_of_reaches {medicine_status : MedicineStatus}
    (h : Reaches step Timely (clinic_init patients pharmacists medicine_status) s) :
    InOrder s ∧ Settled s := by
  induction h with
  | refl =>
      refine ⟨inOrder_init medicine_status, ?_, ?_, ?_⟩
      · exact fun p hp => by cases hp
      · exact fun p rest hp => by cases hp
      · exact fun p hp => by cases hp
  | step v w x _ hok hstep ih => exact ⟨ih.1.step hstep, settled_step ih.1 ih.2 hok hstep⟩

/-- A step takes the status of a treated patient forward only. -/
theorem status_step {x : Thread patients pharmacists} (hin : InOrder s) (h : Settled s)
    (hok : Timely s x) (hstep : step s x = some s') (p : Fin patients) :
    (s.status p = .TREATMENT → s'.status p = .TREATMENT ∨ s'.status p = .GONE) ∧
      (s.status p = .GONE → s'.status p = .GONE) := by
  cases x with
  | doctor =>
      rcases doctor_roster hstep with ⟨_, hstatus, _⟩ | ⟨_, _, _, hstatus, _⟩ |
        ⟨q, rest, hpc, _, _, hstatus⟩ | ⟨q, rest, _, _, _, hstatus⟩
      · rw [hstatus]
        exact ⟨Or.inl, id⟩
      · rw [hstatus]
        exact ⟨Or.inl, id⟩
      · -- The patient whose treatment begins is in the queue.
        by_cases hpq : p = q
        · have hqueue := (treated_waits hin hpc (hok q (by rw [hpc]; rfl))).2
          rw [hpq, hqueue]
          exact ⟨(fun hc => by cases hc), fun hc => by cases hc⟩
        · rw [hstatus, Function.update_of_ne hpq]
          exact ⟨Or.inl, id⟩
      · by_cases hpq : p = q
        · rw [hstatus, hpq, Function.update_self]
          exact ⟨fun _ => Or.inr rfl, fun _ => rfl⟩
        · rw [hstatus, Function.update_of_ne hpq]
          exact ⟨Or.inl, id⟩
  -- A patient writes its own status only, and no more after its treatment.
  | patient q =>
      by_cases hpq : p = q
      · rw [hpq]
        exact ⟨fun hs => Or.inl (patient_treated hok hs (h.treated q hs).2 hstep).1,
          fun hs => (patient_gone hs (h.gone q hs) hstep).1⟩
      · rcases patient_frame hstep with ⟨_, ⟨status, hstatus⟩, _⟩
        rw [hstatus, Function.update_of_ne hpq]
        exact ⟨Or.inl, id⟩
  | pharmacist j =>
      rcases pharmacist_frame hstep with ⟨_, _, _, _, hstatus, _⟩
      rw [hstatus]
      exact ⟨Or.inl, id⟩
  | main =>
      rcases main_frame hstep with ⟨_, _, _, hstatus, _⟩
      rw [hstatus]
      exact ⟨Or.inl, id⟩

/-- Steps of the patient, after steps of the doctor perhaps, bring the patient's
    thread to its end. -/
def Leaves (s : State patients pharmacists) (p : Fin patients) : Prop :=
  ∃ threads s', (∀ x ∈ threads, x = .doctor ∨ x = .patient p) ∧ run step s threads = some s' ∧
    s'.patient p = .ended

theorem Leaves.cons {p : Fin patients} {x : Thread patients pharmacists}
    (hx : x = .doctor ∨ x = .patient p) (hstep : step s x = some s') (h : Leaves s' p) :
    Leaves s p := by
  rcases h with ⟨threads, u, hthreads, hrun, hend⟩
  refine ⟨x :: threads, u, fun y hy => ?_, run_cons_eq_some.mpr ⟨s', hstep, hrun⟩, hend⟩
  rcases List.mem_cons.mp hy with hyx | hy
  · rw [hyx]
    exact hx
  · exact hthreads y hy

theorem leaves_of_exit {p : Fin patients} (hpc : s.patient p = .exit) (hgone : s.status p = .GONE) :
    Leaves s p := by
  have hexit : step s (.patient p) = some (s.setPatient p .finish) := by
    simp [step, patient_thread_routine, hpc, hgone]
  have hfinish : step (s.setPatient p .finish) (.patient p)
      = some (((s.setPatient p .finish).setStatus p .GONE).setPatient p .ended) := by
    simp [step, patient_thread_routine, State.setPatient]
  refine Leaves.cons (Or.inr rfl) hexit (Leaves.cons (Or.inr rfl) hfinish ?_)
  exact ⟨[], _, (fun x hx => by cases hx), rfl, Function.update_self ..⟩

/-- Once the treatment is over, the patient leaves the loop that waits by its
    own steps. -/
theorem leaves_of_gone {p : Fin patients} (hgone : s.status p = .GONE)
    (hpc : s.patient p = .waiting ∨ s.patient p = .asleep ∨ s.patient p = .spin) :
    Leaves s p := by
  have hwaiting : ∀ v : State patients pharmacists, v.status p = .GONE → v.patient p = .waiting →
      Leaves v p := by
    intro v hv hvpc
    have hstep : step v (.patient p) = some (v.setPatient p .exit) := by
      simp [step, patient_thread_routine, hvpc, hv]
    exact Leaves.cons (Or.inr rfl) hstep (leaves_of_exit (Function.update_self ..) hv)
  -- From the other two places it is one step to a place already dealt with.
  rcases hpc with hpc | hpc | hpc
  · exact hwaiting s hgone hpc
  · have hstep : step s (.patient p) = some (s.setPatient p .waiting) := by
      simp [step, patient_thread_routine, hpc, hgone]
    exact Leaves.cons (Or.inr rfl) hstep (hwaiting _ hgone (Function.update_self ..))
  · have hspin : step s (.patient p) = some (s.setPatient p .end_visit) := by
      simp [step, patient_thread_routine, hpc, hgone]
    have hend : step (s.setPatient p .end_visit) (.patient p)
        = some (((s.setPatient p .end_visit).setStatus p .GONE).setPatient p .exit) := by
      simp [step, patient_thread_routine, State.setPatient]
    refine Leaves.cons (Or.inr rfl) hspin (Leaves.cons (Or.inr rfl) hend ?_)
    exact leaves_of_exit (Function.update_self ..) (Function.update_self ..)

/-- A patient whose treatment has begun leaves the loop that waits. While it is
    treated, the doctor finishes first. -/
theorem leaves_of_treated (h : Settled s) {p : Fin patients}
    (htreat : s.status p = .TREATMENT ∨ s.status p = .GONE)
    (hpc : s.patient p = .waiting ∨ s.patient p = .asleep ∨ s.patient p = .spin) :
    Leaves s p := by
  rcases htreat with htreat | hgone
  · rcases (h.treated p htreat).1 with ⟨rest, hdoctor⟩
    have hstep : step s .doctor = some { s.setStatus p .GONE with
        patients_treated := s.patients_treated + 1
        doctor := .treat rest } := by
      simp [step, doctor_thread_routine, hdoctor]
    exact Leaves.cons (Or.inl rfl) hstep (leaves_of_gone (Function.update_self ..) hpc)
  · exact leaves_of_gone hgone hpc

end Status

/-- In a run in which no treatment begins before the announcement and nobody
    begins again during it, a patient's status goes from `TREATMENT` to `GONE`
    at most, and `GONE` is its last. A treated patient can leave the loop in
    which it waits. -/
theorem status_goes_forward (patients pharmacists : Nat) (medicine_status : MedicineStatus)
    (s t : State patients pharmacists)
    (hs : Reaches step Timely (clinic_init patients pharmacists medicine_status) s)
    (ht : Reaches step Timely s t) (p : Fin patients) :
    (s.status p = .TREATMENT → t.status p = .TREATMENT ∨ t.status p = .GONE) ∧
    (s.status p = .GONE → t.status p = .GONE) ∧
    (s.status p = .TREATMENT ∨ s.status p = .GONE →
      (t.patient p = .waiting ∨ t.patient p = .asleep ∨ t.patient p = .spin → Leaves t p)) := by
  -- The induction is on the path from `s`, whose states are all settled.
  have hforward : (s.status p = .TREATMENT → t.status p = .TREATMENT ∨ t.status p = .GONE) ∧
      (s.status p = .GONE → t.status p = .GONE) := by
    induction ht with
    | refl => exact ⟨Or.inl, id⟩
    | step v w x hv hok hstep ih =>
        rcases settled_of_reaches (hs.trans hv) with ⟨hin, hsettled⟩
        rcases status_step hin hsettled hok hstep p with ⟨htreat, hgone⟩
        exact ⟨fun h => (ih.1 h).elim htreat fun h => Or.inr (hgone h), fun h => hgone (ih.2 h)⟩
  refine ⟨hforward.1, hforward.2, fun hbegun hpc => ?_⟩
  have hnow : t.status p = .TREATMENT ∨ t.status p = .GONE :=
    hbegun.elim hforward.1 fun h => Or.inr (hforward.2 h)
  exact leaves_of_treated (settled_of_reaches (hs.trans ht)).2 hnow hpc

instance {patients pharmacists : Nat} (s : State patients pharmacists) :
    ∀ x, Decidable (Timely s x)
  | .doctor => inferInstanceAs (Decidable (∀ p, s.doctor.turnsTo = some p → s.patient p ≠ .announce))
  | .patient p => inferInstanceAs (Decidable (s.patient p = .test → s.status p ≠ .TREATMENT))
  | .pharmacist _ => isTrue trivial
  | .main => isTrue trivial

/-- Two patients come and wake the doctor, which takes both and turns to the
    first, who is asleep in its loop. -/
def firstTreated {patients pharmacists : Nat} (p q : Fin patients) :
    List (Thread patients pharmacists) :=
  List.replicate 5 .doctor ++ List.replicate 9 (.patient p) ++ List.replicate 10 (.patient q) ++
    List.replicate 20 .doctor

/-- The first patient wakes up during its treatment, and leaves its loop after
    it. -/
theorem status_goes_forward_run :
    ∃ s t : State 2 0, Reaches step Timely (clinic_init 2 0 .RECEIVED) s ∧
      Reaches step Timely s t ∧ s.status 0 = .TREATMENT ∧ t.status 0 = .GONE ∧ Leaves t 0 := by
  have hfirst : Meets step Timely (clinic_init 2 0 .RECEIVED) (firstTreated 0 1) := by
    decide +kernel
  have hend : (run step (clinic_init 2 0 .RECEIVED) (firstTreated 0 1)).bind (fun s =>
        (run step s [.patient 0, .doctor]).map fun t =>
          (decide (Meets step Timely s [.patient 0, .doctor]), s.status 0, t.status 0, t.patient 0))
      = some (true, .TREATMENT, .GONE, .spin) := by decide +kernel
  rcases Option.bind_eq_some_iff.mp hend with ⟨s, hrun, hrest⟩
  rcases Option.map_eq_some_iff.mp hrest with ⟨t, hrun', hfour⟩
  simp only [Prod.mk.injEq, decide_eq_true_eq] at hfour
  rcases hfour with ⟨hok, htreat, hgone, hpc⟩
  have hs := reaches_of_run hrun hfirst
  have ht := reaches_of_run hrun' hok
  rcases status_goes_forward 2 0 .RECEIVED s t hs ht 0 with ⟨_, _, hleave⟩
  exact ⟨s, t, hs, ht, htreat, hgone, hleave (Or.inl htreat) (Or.inr (Or.inr hpc))⟩

/-- A patient adds itself to the queue and has not announced itself yet. Another
    one comes and wakes the doctor, which begins with the first. Only now the
    first one writes `QUEUE`. -/
theorem announced_during_treatment :
    ¬ ∀ (patients pharmacists : Nat) (medicine_status : MedicineStatus)
      (s t : State patients pharmacists) (p : Fin patients),
      Reachable step (clinic_init patients pharmacists medicine_status) s → Reachable step s t →
        s.status p = .TREATMENT → t.status p ≠ .QUEUE := by
  intro hclaim
  have hend : (run step (clinic_init 2 0 .RECEIVED)
      (List.replicate 5 .doctor ++ List.replicate 4 (.patient 0) ++ List.replicate 10 (.patient 1) ++
        List.replicate 20 .doctor)).bind (fun s =>
        (run step s [.patient 0]).map fun t => (s.status 0, t.status 0))
      = some (.TREATMENT, .QUEUE) := by decide +kernel
  rcases Option.bind_eq_some_iff.mp hend with ⟨s, hrun, hrest⟩
  rcases Option.map_eq_some_iff.mp hrest with ⟨t, hrun', hpair⟩
  rcases Prod.mk.inj hpair with ⟨htreat, hqueue⟩
  exact hclaim 2 0 .RECEIVED s t 0 (reachable_of_run hrun) (reachable_of_run hrun') htreat hqueue

end Lab9

end OsLabs
