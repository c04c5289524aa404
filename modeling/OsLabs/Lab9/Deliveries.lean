import OsLabs.Lab9.Cabinet

/-!
# The Pharmacists Who Wait

`waiting_pharmacists` should be the number of pharmacists that have come forward
and wait for their delivery to be accepted. A pharmacist adds itself to it when
it comes forward. When its delivery is accepted it leaves, and nobody takes it
off again. So the count is right up to the first delivery, and from then on too
high, and the doctor, who takes it for the number of pharmacists at the door,
goes to accept deliveries nobody has brought.

The two happen together. A run keeps the count right exactly when no pharmacist
leaves its wait in it, and until one does the doctor turns to a delivery only
while somebody is there who has brought it: what the doctor has read may be out
of date by then, but only because more have come.

## Main definitions

* `PharmacistPc.announced`: A pharmacist has come forward and not yet left.
* `Counted`: The count is the number of those.
* `DoctorPc.accepts`: The doctor has woken up for a delivery.
* `Served`: The count is right, and a delivery is accepted from somebody.
* `NobodyLeaves`: A step is not one in which a pharmacist leaves its wait.

## Theorems

* `counted_pharmacist`: What a pharmacist's step does to the two numbers.
* `expects_doctor`: The doctor waits for somebody who has come forward.
* `served_iff_nobodyLeaves`: Any run.
* `nobody_at_the_door`: A second delivery nobody brings.
-/

namespace OsLabs

namespace Lab9

/-- The pharmacist has added itself to the count and not yet left its wait. -/
def PharmacistPc.announced : PharmacistPc → Nat
  | .summon => 1
  | .signal => 1
  | .release => 1
  | .lock_wait => 1
  | .deliver => 1
  | .waiting => 1
  | .relock => 1
  | .rewait => 1
  | _ => 0

/-- The doctor has woken up for a delivery, and not yet accepted it. -/
def DoctorPc.accepts {patients : Nat} : DoctorPc patients → Bool
  | .inner waking_mode => waking_mode = 2
  | .unlock waking_mode => waking_mode = 2
  | .accept => true
  | .lock_refill => true
  | .refill => true
  | _ => false

/-- The doctor has woken up for a delivery, or has read that somebody is there
    to make one. -/
def DoctorPc.expects {patients : Nat} : DoctorPc patients → Bool
  | .lock_count _ pharm_waiting => 0 < pharm_waiting
  | .count _ pharm_waiting => 0 < pharm_waiting
  | pc => pc.accepts

section Deliveries

variable {patients pharmacists : Nat} {s s' : State patients pharmacists}

/-- The count is the number of pharmacists that have come forward and not yet
    left. -/
def Counted (s : State patients pharmacists) : Prop :=
  s.waiting_pharmacists = total PharmacistPc.announced s.pharmacist

/-- The count is right, and while the doctor accepts a delivery some pharmacist
    waits for that. -/
structure Served (s : State patients pharmacists) : Prop where
  counted : Counted s
  brought : s.doctor.accepts = true → ∃ j, 0 < (s.pharmacist j).announced

/-- What holds until a pharmacist leaves. -/
structure Expected (s : State patients pharmacists) : Prop where
  counted : Counted s
  expected : s.doctor.expects = true → ∃ j, 0 < (s.pharmacist j).announced

/-- No pharmacist finds in the step that its delivery is accepted. -/
def NobodyLeaves (s : State patients pharmacists) : Thread patients pharmacists → Prop
  | .pharmacist j => s.pharmacist j = .rewait → s.medicine_status = .IN_DELIVERY
  | _ => True

/-- The step leads to a state in which the count is right and deliveries are
    brought by somebody. -/
def ServedAfter (s : State patients pharmacists) (t : Thread patients pharmacists) : Prop :=
  ∀ s', step s t = some s' → Served s'

theorem expects_of_accepts {pc : DoctorPc patients} (h : pc.accepts = true) :
    pc.expects = true := by
  cases pc <;> first | exact h | cases h

theorem Expected.served (h : Expected s) : Served s :=
  ⟨h.counted, fun haccepts => h.expected (expects_of_accepts haccepts)⟩

/-- A pharmacist that comes forward is counted and announced in one step, and
    one that leaves is only not announced any more. -/
theorem counted_pharmacist {j : Fin pharmacists}
    (hstep : pharmacist_thread_routine s j = some s') :
    ∃ pc, s'.pharmacist = Function.update s.pharmacist j pc ∧
      (s'.waiting_pharmacists + (s.pharmacist j).announced
          = s.waiting_pharmacists + pc.announced ∧ (s.pharmacist j).announced ≤ pc.announced ∧
          NobodyLeaves s (.pharmacist j) ∨
        s'.waiting_pharmacists = s.waiting_pharmacists ∧ (s.pharmacist j).announced = 1 ∧
          pc.announced = 0 ∧ ¬ NobodyLeaves s (.pharmacist j)) := by
  cases pharmacist_moves hstep with
  -- The count goes up where the pharmacist comes forward, and nowhere else.
  | few hpc hfew =>
      have hbefore : (s.pharmacist j).announced = 0 := by
        rcases hpc with hpc | ⟨hpc, _⟩ <;> rw [hpc] <;> rfl
      refine ⟨_, rfl, Or.inl ⟨?_, ?_, fun h => ?_⟩⟩
      · rw [hbefore]
        rfl
      · rw [hbefore]
        exact Nat.zero_le _
      · rcases hpc with hpc | ⟨hpc, _⟩ <;> rw [hpc] at h <;> cases h
  | rewait hpc hstatus =>
      rw [hpc]
      exact ⟨_, rfl, Or.inl ⟨rfl, Nat.le_refl _, fun _ => hstatus⟩⟩
  -- The delivery has been accepted, and nobody takes the pharmacist off the count.
  | rewait_over hpc hstatus =>
      rw [hpc]
      exact ⟨_, rfl, Or.inr ⟨rfl, rfl, rfl, fun h => hstatus (h hpc)⟩⟩
  | full hpc | all_done hpc =>
      rcases hpc with hpc | hpc <;> rw [hpc] <;>
        exact ⟨_, rfl, Or.inl ⟨rfl, Nat.le_refl _, fun h => by rw [hpc] at h; cases h⟩⟩
  | enough hpc =>
      rcases hpc with hpc | ⟨hpc, _⟩ <;> rw [hpc] <;>
        exact ⟨_, rfl, Or.inl ⟨rfl, Nat.le_refl _, fun h => by rw [hpc] at h; cases h⟩⟩
  | _ hpc =>
      rw [hpc]
      exact ⟨_, rfl, Or.inl ⟨rfl, Nat.le_refl _, fun h => by rw [hpc] at h; cases h⟩⟩

/-- The other threads neither count nor announce anybody. -/
theorem counted_frame {t : Thread patients pharmacists} (ht : ∀ j, t ≠ .pharmacist j)
    (hstep : step s t = some s') :
    s'.waiting_pharmacists = s.waiting_pharmacists ∧ s'.pharmacist = s.pharmacist := by
  cases t with
  | pharmacist j => exact absurd rfl (ht j)
  | doctor =>
      refine ⟨?_, (doctor_frame hstep).2.1⟩
      cases doctor_moves hstep <;> rfl
  | patient p =>
      refine ⟨?_, (patient_frame hstep).2.2.2.1⟩
      cases patient_moves hstep <;> rfl
  | main =>
      refine ⟨?_, (main_frame hstep).2.2.1⟩
      cases main_moves hstep <;> rfl

/-- The doctor comes to expect somebody by reading the count, and it wakes up
    for a delivery when what it has read is not zero. -/
theorem expects_doctor (hstep : doctor_thread_routine s = some s')
    (h : s'.doctor.expects = true) :
    s.doctor.expects = true ∨ 0 < s.waiting_pharmacists := by
  cases doctor_moves hstep with
  | read_medicine hpc => exact Or.inr (of_decide_eq_true h)
  | count hpc =>
      have hmode := of_decide_eq_true h
      unfold wakingMode at hmode
      split_ifs at hmode with hboth hwaiting
      · cases hmode
      · rw [hpc]
        exact Or.inl (decide_eq_true hwaiting.1)
  -- From here to the end of the delivery the doctor expects somebody already.
  | lock_count hpc | inner_left hpc | unlock_accept hpc | accept hpc | lock_refill hpc =>
      rw [hpc]
      exact Or.inl h
  | _ => cases h

/-- A count that is right and not zero is of somebody. -/
theorem Counted.exists_announced (h : Counted s) (hpos : 0 < s.waiting_pharmacists) :
    ∃ j, 0 < (s.pharmacist j).announced := by
  rw [h] at hpos
  exact exists_of_total_pos PharmacistPc.announced hpos

/-- A step in which nobody leaves keeps the count right, and whoever the doctor
    expects stays. -/
theorem expected_step (h : Expected s) {t : Thread patients pharmacists}
    (hok : NobodyLeaves s t) (hstep : step s t = some s') : Expected s' := by
  cases t with
  | pharmacist j =>
      rcases pharmacist_frame hstep with ⟨_, hdoctor, _⟩
      rcases counted_pharmacist hstep with ⟨pc, hpharmacist, ⟨hcount, hmono, _⟩ | ⟨_, _, _, hleaves⟩⟩
      · have hupdate := total_update PharmacistPc.announced s.pharmacist j pc
        have hcounted := h.counted
        refine ⟨?_, fun hexpects => ?_⟩
        · unfold Counted at hcounted ⊢
          rw [hpharmacist]
          omega
        · rw [hdoctor] at hexpects
          rcases h.expected hexpects with ⟨k, hk⟩
          refine ⟨k, ?_⟩
          rw [hpharmacist]
          by_cases hkj : k = j
          · rw [hkj, Function.update_self]
            rw [hkj] at hk
            omega
          · rw [Function.update_of_ne hkj]
            exact hk
      · exact absurd hok hleaves
  | doctor =>
      rcases counted_frame (fun _ => by simp) hstep with ⟨hcount, hpharmacist⟩
      refine ⟨?_, fun hexpects => ?_⟩
      · rw [Counted, hcount, hpharmacist]
        exact h.counted
      · rw [hpharmacist]
        exact (expects_doctor hstep hexpects).elim h.expected h.counted.exists_announced
  | patient p =>
      rcases counted_frame (fun _ => by simp) hstep with ⟨hcount, hpharmacist⟩
      refine ⟨?_, ?_⟩
      · rw [Counted, hcount, hpharmacist]
        exact h.counted
      · rw [hpharmacist, (patient_frame hstep).2.2.1]
        exact h.expected
  | main =>
      rcases counted_frame (fun _ => by simp) hstep with ⟨hcount, hpharmacist⟩
      refine ⟨?_, ?_⟩
      · rw [Counted, hcount, hpharmacist]
        exact h.counted
      · rw [hpharmacist, (main_frame hstep).1]
        exact h.expected

/-- A pharmacist that leaves makes the count wrong. -/
theorem nobodyLeaves_of_counted (h : Counted s) {t : Thread patients pharmacists}
    (hstep : step s t = some s') (h' : Counted s') : NobodyLeaves s t := by
  cases t with
  | pharmacist j =>
      rcases counted_pharmacist hstep with
        ⟨pc, hpharmacist, ⟨_, _, hstays⟩ | ⟨hcount, hone, hzero, _⟩⟩
      · exact hstays
      · have hupdate := total_update PharmacistPc.announced s.pharmacist j pc
        unfold Counted at h h'
        rw [hpharmacist] at h'
        omega
  | doctor => trivial
  | patient p => trivial
  | main => trivial

theorem servedAfter_iff (h : Expected s) {t : Thread patients pharmacists}
    (hstep : step s t = some s') : ServedAfter s t ↔ NobodyLeaves s t := by
  refine ⟨fun hall => nobodyLeaves_of_counted h.counted hstep (hall s' hstep).counted,
    fun hok u hu => (expected_step h hok hu).served⟩

theorem expected_init (medicine_status : MedicineStatus) :
    Expected (clinic_init patients pharmacists medicine_status) where
  counted := (total_eq_zero PharmacistPc.announced fun _ => rfl).symm
  expected := fun h => by cases h

end Deliveries

/-- With any number of patients and pharmacists the count is right at the
    beginning, and in every state of a run, with somebody at the door whenever
    the doctor accepts a delivery, exactly when no pharmacist leaves its wait in
    the run. -/
theorem served_iff_nobodyLeaves (patients pharmacists : Nat) (medicine_status : MedicineStatus) :
    Served (clinic_init patients pharmacists medicine_status) ∧
      ∀ threads,
        Meets step ServedAfter (clinic_init patients pharmacists medicine_status) threads ↔
          Meets step NobodyLeaves (clinic_init patients pharmacists medicine_status) threads := by
  refine ⟨(expected_init medicine_status).served, fun threads => ?_⟩
  have hiff : ∀ (v : State patients pharmacists) t w, Expected v → step v t = some w →
      (ServedAfter v t ↔ NobodyLeaves v t) := fun v t w hv hstep => servedAfter_iff hv hstep
  have hinv : ∀ (v : State patients pharmacists) t w, Expected v → ServedAfter v t →
      step v t = some w → Expected w := fun v t w hv hok hstep =>
    expected_step hv ((servedAfter_iff hv hstep).mp hok) hstep
  exact meets_congr hiff hinv threads (expected_init medicine_status)

/-- The doctor treats four patients in two rounds, which uses up the medicine,
    and waits. -/
def twoRounds {patients pharmacists : Nat} (p : Nat → Fin patients) :
    List (Thread patients pharmacists) :=
  List.replicate 5 .doctor ++ treatmentRound (p 0) (p 1) ++ treatmentRound (p 2) (p 3)

/-- A pharmacist comes forward, the doctor accepts its delivery, and the
    pharmacist leaves. -/
def delivery {patients pharmacists : Nat} (j : Fin pharmacists) :
    List (Thread patients pharmacists) :=
  List.replicate 8 (.pharmacist j) ++ List.replicate 12 .doctor ++ List.replicate 3 (.pharmacist j)

/-- When the medicine of the first delivery is used up the doctor wakes up and
    accepts a second one, while the only pharmacist has left. -/
theorem nobody_at_the_door :
    ¬ ∀ (patients pharmacists : Nat) (medicine_status : MedicineStatus)
      (s : State patients pharmacists),
      Reachable step (clinic_init patients pharmacists medicine_status) s → Served s := by
  intro hclaim
  have hend : (run step (clinic_init 8 1 .RECEIVED)
      (twoRounds (Fin.ofNat 8) ++ delivery 0 ++ twoRounds (fun k => Fin.ofNat 8 (4 + k)) ++
        List.replicate 9 .doctor)).map
      (fun s => (s.waiting_pharmacists, s.doctor, s.pharmacist 0))
        = some (1, .accept, .lock_leave) := by decide +kernel
  rcases Option.map_eq_some_iff.mp hend with ⟨s, hrun, hs⟩
  simp only [Prod.mk.injEq] at hs
  rcases hs with ⟨hcount, hdoctor, hpharmacist⟩
  have hserved := hclaim 8 1 .RECEIVED s (reachable_of_run hrun)
  rcases hserved.brought (by rw [hdoctor]; rfl) with ⟨j, hj⟩
  rw [Subsingleton.elim j 0, hpharmacist] at hj
  cases hj

end Lab9

end OsLabs
