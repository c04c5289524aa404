import OsLabs.Lab9.Locks

/-!
# The Medicine Cabinet

The doctor reads how much medicine there is under the mutex of the medicine,
gives that mutex back, counts the patients, gives its own mutex back, takes the
patients from the queue, and only then subtracts what it needs, without looking
again. What makes this safe is that nobody else writes `medicine_count`. The
pharmacists read it, and the delivery they wait for is the doctor's own doing.
So what the doctor has once read stays true until it acts on it, and no mutex
is needed for that.

`Stocked` says what the doctor may rely on at each of its places. It holds in
every state, whatever the other threads do, and the subtraction leaves the count
at zero or more for that reason.

## Main definitions

* `DoctorPc.relies`: What a place of the doctor relies on.
* `Stocked`: The count is within its bounds, and the doctor can rely on it.

## Theorems

* `stocked_doctor`: The doctor's steps.
* `medicine_frame`: Nobody else changes the count.
* `stocked_step`, `stocked_of_reaches`: Any step, any run.
* `cabinet_sound`: The bounds, and the subtraction.
* `cabinet_sound_run`: A doctor about to subtract.
-/

namespace OsLabs

namespace Lab9

/-- What a place of the doctor relies on. Up to the count it is that its local
    variable is up to date, and from there on that there is enough. -/
def DoctorPc.relies {patients : Nat} (medicine_count : Int) : DoctorPc patients → Prop
  | .lock_count med_count _ => med_count = medicine_count
  | .count med_count _ => med_count = medicine_count
  | .inner waking_mode => waking_mode = 1 → MIN_MEDICINE_REQUIRED ≤ medicine_count
  | .unlock waking_mode => waking_mode = 1 → MIN_MEDICINE_REQUIRED ≤ medicine_count
  | .drain _ => MIN_MEDICINE_REQUIRED ≤ medicine_count
  | .lock_pop _ => MIN_MEDICINE_REQUIRED ≤ medicine_count
  | .pop _ => MIN_MEDICINE_REQUIRED ≤ medicine_count
  | .lock_treat _ => MIN_MEDICINE_REQUIRED ≤ medicine_count
  | .lock_consume _ => MIN_MEDICINE_REQUIRED ≤ medicine_count
  | .consume _ => MIN_MEDICINE_REQUIRED ≤ medicine_count
  | _ => True

section Cabinet

variable {patients pharmacists : Nat} {s s' : State patients pharmacists}

/-- The count is within its bounds, and the doctor can rely on it. -/
structure Stocked (s : State patients pharmacists) : Prop where
  nonneg : 0 ≤ s.medicine_count
  le_capacity : s.medicine_count ≤ MEDICINE_CABINET_CAPACITY
  relied : s.doctor.relies s.medicine_count

theorem stocked_init (medicine_status : MedicineStatus) :
    Stocked (clinic_init patients pharmacists medicine_status) where
  nonneg := (by decide : (0 : Int) ≤ MEDICINE_CABINET_CAPACITY)
  le_capacity := Int.le_refl _
  relied := trivial

/-- The waking mode is 1 only when there is enough medicine. -/
theorem enough_of_wakingMode {patient_count med_count : Int} {pharm_waiting : Nat}
    (h : wakingMode patient_count med_count pharm_waiting = 1) :
    patient_count = CLINIC_QUEUE_SIZE ∧ MIN_MEDICINE_REQUIRED ≤ med_count := by
  unfold wakingMode at h
  split_ifs at h with hboth
  · exact hboth
  · cases h

/-- The doctor's steps lead from what one place relies on to what the next one
    does. -/
theorem stocked_doctor (h : Stocked s) (hstep : doctor_thread_routine s = some s') :
    Stocked s' := by
  have hrelied := h.relied
  cases doctor_moves hstep with
  -- What the doctor reads here is the count as it is.
  | read_medicine hpc => exact ⟨h.nonneg, h.le_capacity, rfl⟩
  | lock_count hpc | inner_left hpc | drain hpc | drain_empty hpc | lock_pop hpc | pop hpc
  | lock_treat hpc | lock_consume hpc =>
      rw [hpc] at hrelied
      exact ⟨h.nonneg, h.le_capacity, hrelied⟩
  | count hpc =>
      rw [hpc] at hrelied
      exact ⟨h.nonneg, h.le_capacity,
        fun hmode => le_of_le_of_eq (enough_of_wakingMode hmode).2 hrelied⟩
  | unlock_treat hpc =>
      rw [hpc] at hrelied
      exact ⟨h.nonneg, h.le_capacity, hrelied rfl⟩
  -- The subtraction relies on there being enough.
  | consume hpc =>
      rw [hpc] at hrelied
      have henough : MIN_MEDICINE_REQUIRED ≤ s.medicine_count := hrelied
      have hmin : (0 : Int) ≤ MIN_MEDICINE_REQUIRED := by decide
      have hcapacity := h.le_capacity
      refine ⟨?_, ?_, trivial⟩
      · simp only []
        omega
      · simp only []
        omega
  | refill hpc =>
      exact ⟨(by decide : (0 : Int) ≤ MEDICINE_CABINET_CAPACITY), Int.le_refl _, trivial⟩
  -- In mode 0 nothing is relied on.
  | relock hpc | test_ended hpc => exact ⟨h.nonneg, h.le_capacity, fun hmode => by cases hmode⟩
  | _ => exact ⟨h.nonneg, h.le_capacity, trivial⟩

/-- The other threads leave the count alone, and the doctor where it is. -/
theorem medicine_frame {t : Thread patients pharmacists} (ht : t ≠ .doctor)
    (hstep : step s t = some s') :
    s'.medicine_count = s.medicine_count ∧ s'.doctor = s.doctor := by
  cases t with
  | doctor => exact absurd rfl ht
  | patient p =>
      rcases patient_frame hstep with ⟨_, _, hdoctor, _, _, _, hmed, _⟩
      exact ⟨hmed, hdoctor⟩
  | pharmacist j =>
      rcases pharmacist_frame hstep with ⟨_, hdoctor, _, _, _, _, hmed, _⟩
      exact ⟨hmed, hdoctor⟩
  | main =>
      rcases main_frame hstep with ⟨hdoctor, _, _, _, _, hmed⟩
      exact ⟨hmed, hdoctor⟩

theorem stocked_step (h : Stocked s) {t : Thread patients pharmacists}
    (hstep : step s t = some s') : Stocked s' := by
  by_cases ht : t = .doctor
  · rw [ht] at hstep
    exact stocked_doctor h hstep
  · rcases medicine_frame ht hstep with ⟨hmed, hdoctor⟩
    exact ⟨by rw [hmed]; exact h.nonneg, by rw [hmed]; exact h.le_capacity,
      by rw [hmed, hdoctor]; exact h.relied⟩

theorem stocked_of_reaches {medicine_status : MedicineStatus}
    (hreach : Reachable step (clinic_init patients pharmacists medicine_status) s) : Stocked s :=
  hreach.invariant (stocked_init medicine_status) fun _ _ _ hv _ hstep => stocked_step hv hstep

end Cabinet

/-- In every state of the clinic the count of the medicine is between zero and
    what the cabinet holds, and where the doctor subtracts what it needs for a
    treatment, there is that much. -/
theorem cabinet_sound (patients pharmacists : Nat) (medicine_status : MedicineStatus)
    (s : State patients pharmacists)
    (hreach : Reachable step (clinic_init patients pharmacists medicine_status) s) :
    (0 ≤ s.medicine_count ∧ s.medicine_count ≤ MEDICINE_CABINET_CAPACITY) ∧
      ∀ batch, s.doctor = .consume batch → MIN_MEDICINE_REQUIRED ≤ s.medicine_count := by
  have h := stocked_of_reaches hreach
  refine ⟨⟨h.nonneg, h.le_capacity⟩, fun batch hpc => ?_⟩
  have hrelied := h.relied
  rw [hpc] at hrelied
  exact hrelied

/-- Two patients have come, and the doctor is about to subtract for them. -/
theorem cabinet_sound_run :
    ∃ s : State 2 0, s.doctor = .consume [some 0, some 1] ∧
      MIN_MEDICINE_REQUIRED ≤ s.medicine_count ∧ s.medicine_count ≤ MEDICINE_CABINET_CAPACITY := by
  have hend : (run step (clinic_init 2 0 .RECEIVED)
      (List.replicate 5 .doctor ++ arrival 0 ++ arrival 1 ++ List.replicate 2 (.patient 1) ++
        List.replicate 18 .doctor)).map (fun s => s.doctor)
        = some (.consume [some 0, some 1]) := by decide +kernel
  rcases Option.map_eq_some_iff.mp hend with ⟨s, hrun, hdoctor⟩
  have hsound := cabinet_sound 2 0 .RECEIVED s (reachable_of_run hrun)
  exact ⟨s, hdoctor, hsound.2 _ hdoctor, hsound.1.2⟩

end Lab9

end OsLabs
