import OsLabs.Lab9.Roster

/-!
# The Batches the Doctor Treats

The doctor wakes up when the queue is full and there is medicine, takes all
patients from the queue and pays three units for them. It should be three
patients each time.

The count that tells it that the queue is full says so when two patients are in
it (`Holds.queue_count_eq_iff`). The batch is what the doctor then pops until it
finds the queue empty, and patients may be added all the while. So it is three
patients when one more is added in between. With none the doctor treats two for
the price of three; with two more, one at a time, it stores beyond its array.

The proof is an outline of the doctor's loop: an assertion for every place of
the doctor, which the doctor's steps lead from one to the next and the steps of
the others keep. The assertions speak of the number of patients
added since the count, which a ledger keeps beside the state, together with the
batches taken and the medicine used.

## Main definitions

* `Ledger`, `ledgerStep`: The system with what the doctor has taken and used.
* `OneJoins`: One patient is added between the count and the empty queue.
* `Complete`: A batch of three different patients.
* `Batched`: All batches are complete and paid for.
* `Grown`, `outline`: The assertions.

## Theorems

* `ledger_of_reaches`: Every run of the clinic has a ledger.
* `grown_patient`: Other threads keep the assertions.
* `outline_doctor`: The doctor leads from one to the next.
* `batches_complete`: Any run.
* `batches_complete_run`: A run with a complete batch.
* `batch_of_two`: A run with two patients.
-/

namespace OsLabs

namespace Lab9

/-- The clinic with a record of the patients added since the doctor has last
    counted, of what it had taken each time it found the queue empty, and of
    what it has then taken out of the cabinet. -/
structure Ledger (patients pharmacists : Nat) where
  clinic : State patients pharmacists
  joined : Nat
  batches : List (List (Option (Fin patients)))
  used : List Int

section Books

variable {patients pharmacists : Nat}

/-- The patients added since the count, after a step. -/
def joinedAfter (l : Ledger patients pharmacists) : Thread patients pharmacists → Nat
  | .doctor =>
    match l.clinic.doctor with
    | .count _ _ => 0
    | _ => l.joined
  | .patient p =>
    if l.clinic.patient p = .add ∧ (queue_add l.clinic.patient_queue (some p)).2 = 0 then
      l.joined + 1
    else l.joined
  | _ => l.joined

/-- The batch a step completes. -/
def batchTaken (s : State patients pharmacists) :
    Thread patients pharmacists → List (List (Option (Fin patients)))
  | .doctor =>
    match s.doctor with
    | .drain batch => if queue_is_empty s.patient_queue then [batch] else []
    | _ => []
  | _ => []

/-- What a step takes out of the cabinet. -/
def medicineUsed (s s' : State patients pharmacists) : Thread patients pharmacists → List Int
  | .doctor =>
    match s.doctor with
    | .consume _ => [s.medicine_count - s'.medicine_count]
    | _ => []
  | _ => []

def ledgerStep (l : Ledger patients pharmacists) (t : Thread patients pharmacists) :
    Option (Ledger patients pharmacists) :=
  (step l.clinic t).map fun s =>
    { clinic := s
      joined := joinedAfter l t
      batches := l.batches ++ batchTaken l.clinic t
      used := l.used ++ medicineUsed l.clinic s t }

/-- The ledger of a clinic that opens. -/
def opening (patients pharmacists : Nat) (medicine_status : MedicineStatus) :
    Ledger patients pharmacists where
  clinic := clinic_init patients pharmacists medicine_status
  joined := 0
  batches := []
  used := []

/-- The doctor is at the condition of the loop that takes patients. -/
def DoctorPc.drains : DoctorPc patients → Bool
  | .drain _ => true
  | _ => false

/-- The doctor has a batch and has not yet paid for it. -/
def DoctorPc.owes : DoctorPc patients → Nat
  | .lock_treat _ => 1
  | .lock_consume _ => 1
  | .consume _ => 1
  | _ => 0

/-- Where the doctor tests the queue, at most one patient has been added since
    the count, and one has when the queue is empty. -/
def OneJoins (l : Ledger patients pharmacists) : Thread patients pharmacists → Prop
  | .doctor => l.clinic.doctor.drains = true →
      l.joined ≤ 1 ∧ (queue_is_empty l.clinic.patient_queue = true → l.joined = 1)
  | _ => True

/-- Three different patients. -/
def Complete (batch : List (Option (Fin patients))) : Prop :=
  ∃ treated : List (Fin patients), batch = treated.map some ∧
    treated.length = CLINIC_QUEUE_SIZE ∧ treated.Nodup

/-- Every batch is complete, of patients who wait, and three units have been
    used for it, which were there. -/
structure Batched (l : Ledger patients pharmacists) : Prop where
  complete : ∀ batch ∈ l.batches, Complete batch
  waiting : ∀ p ∈ l.clinic.doctor.untreated, Inside l.clinic p
  used_eq : l.used = List.replicate (l.batches.length - l.clinic.doctor.owes) MIN_MEDICINE_REQUIRED
  stocked : ∀ batch, l.clinic.doctor = .consume batch →
    MIN_MEDICINE_REQUIRED ≤ l.clinic.medicine_count
  safe : l.clinic.doctor ≠ .overrun

/-- While the doctor takes patients there is medicine for them, and what it has
    and what the queue has is what was in the queue at the count and those added
    since. -/
structure Grown (l : Ledger patients pharmacists) (batch : List (Option (Fin patients))) :
    Prop where
  stocked : MIN_MEDICINE_REQUIRED ≤ l.clinic.medicine_count
  real : ∃ taken : List (Fin patients), batch = taken.map some
  length_eq : l.joined ≤ 1 →
    batch.length + (stored l.clinic.patient_queue).length = 2 + l.joined

/-- The assertion at a place of the doctor. -/
def outline (l : Ledger patients pharmacists) : DoctorPc patients → Prop
  | .lock_count med_count _ => med_count = l.clinic.medicine_count
  | .count med_count _ => med_count = l.clinic.medicine_count
  | .inner waking_mode => waking_mode = 1 → Grown l []
  | .unlock waking_mode => waking_mode = 1 → Grown l []
  | .drain batch => Grown l batch
  | .lock_pop batch => Grown l batch ∧ batch.length ≤ 2 ∧ stored l.clinic.patient_queue ≠ []
  | .pop batch => Grown l batch ∧ batch.length ≤ 2 ∧ stored l.clinic.patient_queue ≠ []
  | .overrun => False
  | .lock_treat batch => MIN_MEDICINE_REQUIRED ≤ l.clinic.medicine_count ∧ Complete batch
  | .lock_consume batch => MIN_MEDICINE_REQUIRED ≤ l.clinic.medicine_count ∧ Complete batch
  | .consume batch => MIN_MEDICINE_REQUIRED ≤ l.clinic.medicine_count ∧ Complete batch
  | _ => True

end Books

section Outline

variable {patients pharmacists : Nat} {l l' : Ledger patients pharmacists}
  {batch : List (Option (Fin patients))}

/-- Every run of the clinic has a ledger. -/
theorem ledger_of_reaches {s t : State patients pharmacists} {l : Ledger patients pharmacists}
    (hl : l.clinic = s) (h : Reachable step s t) :
    ∃ l', l'.clinic = t ∧ Reachable ledgerStep l l' := by
  induction h with
  | refl => exact ⟨l, hl, Reaches.refl⟩
  | step v w x _ _ hstep ih =>
      rcases ih with ⟨l', rfl, hreach⟩
      exact ⟨_, rfl, Reaches.step _ _ x hreach trivial (by rw [ledgerStep, hstep]; rfl)⟩

theorem ledgerStep_eq_some {t : Thread patients pharmacists} (h : ledgerStep l t = some l') :
    ∃ s', step l.clinic t = some s' ∧ l' =
      { clinic := s'
        joined := joinedAfter l t
        batches := l.batches ++ batchTaken l.clinic t
        used := l.used ++ medicineUsed l.clinic s' t } := by
  rcases Option.map_eq_some_iff.mp h with ⟨s', hstep, hl⟩
  exact ⟨s', hstep, hl.symm⟩

theorem InOrder.stored_eq {s : State patients pharmacists} (h : InOrder s) :
    ∃ n, Holds s.patient_queue n (stored s.patient_queue) ∧ Roster s (stored s.patient_queue) := by
  rcases h.roster with ⟨n, q, hq, hr⟩
  rw [hq.stored_eq]
  exact ⟨n, hq, hr⟩

/-- The assertions speak of the medicine, the queue and the patients added. -/
theorem Grown.congr (h : Grown l batch)
    (hmed : l'.clinic.medicine_count = l.clinic.medicine_count)
    (hqueue : l'.clinic.patient_queue = l.clinic.patient_queue) (hjoined : l'.joined = l.joined) :
    Grown l' batch where
  stocked := by rw [hmed]; exact h.stocked
  real := h.real
  length_eq := by rw [hqueue, hjoined]; exact h.length_eq

/-- A patient who is added is counted as added. -/
theorem grown_patient {p : Fin patients} (hin : InOrder l.clinic)
    (hstep : ledgerStep l (.patient p) = some l') :
    (∀ batch, Grown l batch → Grown l' batch) ∧
      (stored l.clinic.patient_queue ≠ [] → stored l'.clinic.patient_queue ≠ []) := by
  rcases ledgerStep_eq_some hstep with ⟨s', hs, hl⟩
  have hmed : l'.clinic.medicine_count = l.clinic.medicine_count := by
    rw [hl]
    exact (patient_frame hs).2.2.2.2.2.2.1
  have hclinic : l'.clinic = s' := by rw [hl]
  have hjoined : l'.joined = joinedAfter l (.patient p) := by rw [hl]
  rcases hin.stored_eq with ⟨n, hq, _⟩
  -- Where the patient does not add itself, neither the queue nor the count changes.
  rcases patient_queue_step hs with ⟨hpc, hqueue⟩ | ⟨hpc, hqueue, _⟩
  · have hsame : joinedAfter l (.patient p) = l.joined := if_neg fun hc => hpc hc.1
    rw [← hclinic] at hqueue
    refine ⟨fun batch h => h.congr hmed hqueue (hjoined.trans hsame), ?_⟩
    rw [hqueue]
    exact id
  rw [← hclinic] at hqueue
  rcases holds_add_cases hq p with ⟨hres, hnew⟩ | hrefused | ⟨hlen, hres, hnew⟩
  · have hmore : l'.joined = l.joined + 1 := hjoined.trans (if_pos ⟨hpc, hres⟩)
    rw [← hqueue] at hnew
    rw [hnew.stored_eq]
    refine ⟨fun batch h => ⟨by rw [hmed]; exact h.stocked, h.real, fun hle => ?_⟩, ?_⟩
    · have hold := h.length_eq (by omega)
      rw [hnew.stored_eq, List.length_append, List.length_singleton]
      omega
    · exact fun _ => List.append_ne_nil_of_right_ne_nil _ (List.cons_ne_nil p [])
  · have hminus : (-1 : Int) ≠ 0 := by decide
    have hsame : joinedAfter l (.patient p) = l.joined :=
      if_neg fun hc => hminus (by rw [hrefused] at hc; exact hc.2)
    rw [hrefused] at hqueue
    refine ⟨fun batch h => h.congr hmed hqueue (hjoined.trans hsame), ?_⟩
    rw [hqueue]
    exact id
  · -- The queue overruns only when somebody has been added already.
    have hmore : l'.joined = l.joined + 1 := hjoined.trans (if_pos ⟨hpc, hres⟩)
    rw [← hqueue] at hnew
    rw [hnew.stored_eq]
    refine ⟨fun batch h => ⟨by rw [hmed]; exact h.stocked, h.real, fun hle => ?_⟩, ?_⟩
    · have hold := h.length_eq (by omega)
      omega
    · intro hne
      cases hst : stored l.clinic.patient_queue with
      | nil => exact absurd hst hne
      | cons a rest => exact List.cons_ne_nil a _

/-- What the other threads do keeps every assertion. -/
theorem outline_keep (hmed : l'.clinic.medicine_count = l.clinic.medicine_count)
    (hgrown : ∀ batch, Grown l batch → Grown l' batch)
    (hne : stored l.clinic.patient_queue ≠ [] → stored l'.clinic.patient_queue ≠ [])
    (pc : DoctorPc patients) (h : outline l pc) : outline l' pc := by
  cases pc with
  | lock_count | count => exact Eq.trans h hmed.symm
  | inner | unlock => exact fun hmode => hgrown [] (h hmode)
  | drain batch => exact hgrown batch h
  | lock_pop batch | pop batch => exact ⟨hgrown batch h.1, h.2.1, hne h.2.2⟩
  | lock_treat batch | lock_consume batch | consume batch =>
      exact ⟨by rw [hmed]; exact h.1, h.2⟩
  | overrun => exact h
  | _ => trivial

/-- Where the doctor finds the queue empty and one patient has been added, the
    batch is complete. -/
theorem complete_of_empty (hin : InOrder l.clinic) (hpc : l.clinic.doctor = .drain batch)
    (h : Grown l batch) (hjoined : l.joined = 1)
    (hempty : queue_is_empty l.clinic.patient_queue = true) : Complete batch := by
  rcases hin.stored_eq with ⟨n, hq, hr⟩
  rcases h.real with ⟨taken, htaken⟩
  have hnil : stored l.clinic.patient_queue = [] := by
    rw [hq.queue_is_empty_eq] at hempty
    exact List.isEmpty_iff.mp hempty
  -- Two were counted and one was added, and none is in the queue any more.
  have hlen := h.length_eq (by omega)
  rw [hnil, hjoined, htaken, List.length_map] at hlen
  have hunt : l.clinic.doctor.untreated = taken := by
    rw [hpc, htaken]
    simp [DoctorPc.untreated, List.reduceOption]
  have hnodup := hr.nodup
  rw [hunt] at hnodup
  exact ⟨taken, htaken, hlen, (List.nodup_append.mp hnodup).1⟩

theorem patientCount_complete (h : Complete batch) : patientCount batch = CLINIC_QUEUE_SIZE := by
  rcases h with ⟨treated, rfl, hlen, _⟩
  rw [← hlen, patientCount, List.countP_eq_length.mpr, List.length_map]
  intro p hp
  rcases List.mem_map.mp hp with ⟨q, _, rfl⟩
  rfl

/-- The doctor's steps lead from one assertion to the next. -/
theorem outline_doctor (hin : InOrder l.clinic) (h : outline l l.clinic.doctor)
    (hok : OneJoins l .doctor) (hstep : ledgerStep l .doctor = some l') :
    outline l' l'.clinic.doctor := by
  rcases ledgerStep_eq_some hstep with ⟨s', hs, rfl⟩
  simp only [step] at hs
  cases doctor_moves hs with
  | read_medicine hpc => rfl
  | @count med_count pharm_waiting hpc =>
      rw [hpc] at h
      intro hmode
      -- The doctor has counted two patients and enough medicine.
      have hboth : queue_count l.clinic.patient_queue = CLINIC_QUEUE_SIZE ∧
          med_count ≥ MIN_MEDICINE_REQUIRED := by
        by_contra hnot
        rw [wakingMode, if_neg hnot] at hmode
        split_ifs at hmode
        cases hmode
      rcases hin.stored_eq with ⟨n, hq, _⟩
      refine ⟨?_, ⟨[], rfl⟩, fun _ => ?_⟩
      · exact le_of_le_of_eq hboth.2 h
      · rw [hq.queue_count_eq_iff] at hboth
        simp [joinedAfter, hpc, hboth.1]
  | inner_left hpc =>
      rw [hpc] at h
      exact fun hmode => (h hmode).congr rfl rfl (by simp [joinedAfter, hpc])
  | unlock_treat hpc =>
      rw [hpc] at h
      exact (h rfl).congr rfl rfl (by simp [joinedAfter, hpc])
  | drain_empty hpc hempty =>
      rw [hpc] at h
      rcases hok (by rw [hpc]; rfl) with ⟨_, hone⟩
      exact ⟨h.stocked, complete_of_empty hin hpc h (hone hempty) hempty⟩
  | drain hpc hmore =>
      rw [hpc] at h
      rcases hok (by rw [hpc]; rfl) with ⟨hle, _⟩
      rcases hin.stored_eq with ⟨n, hq, _⟩
      rw [hq.queue_is_empty_eq, List.isEmpty_iff] at hmore
      have hlen := h.length_eq hle
      have hpos := List.length_pos_of_ne_nil hmore
      refine ⟨h.congr rfl rfl (by simp [joinedAfter, hpc]), ?_, hmore⟩
      omega
  | lock_pop hpc =>
      rw [hpc] at h
      exact ⟨h.1.congr rfl rfl (by simp [joinedAfter, hpc]), h.2⟩
  -- Only the doctor pops, so that there is still a patient in the queue.
  | pop hpc hroom =>
      rw [hpc] at h
      rcases h with ⟨hgrown, _, hne⟩
      rcases hin.stored_eq with ⟨n, hq, _⟩
      cases hst : stored l.clinic.patient_queue with
      | nil => exact absurd hst hne
      | cons p rest =>
          rw [hst] at hq
          rcases holds_pop hq with ⟨hp, hrest⟩
          simp only [hp]
          rcases hgrown.real with ⟨taken, htaken⟩
          refine ⟨hgrown.stocked, ⟨taken ++ [p], by rw [htaken, List.map_append]; rfl⟩, ?_⟩
          have hjoined : joinedAfter l .doctor = l.joined := by simp [joinedAfter, hpc]
          intro hle
          have hold := hgrown.length_eq (le_of_eq_of_le hjoined.symm hle)
          rw [hst, List.length_cons] at hold
          rw [hrest.stored_eq, List.length_append, List.length_singleton]
          simp only [hjoined]
          omega
  -- The assertion is what keeps the doctor from going past the array.
  | pop_overrun hpc hroom =>
      rw [hpc] at h
      exact hroom (Nat.lt_succ_of_le h.2.1)
  | lock_count hpc | lock_treat hpc | lock_consume hpc =>
      rw [hpc] at h
      exact h
  -- In mode 0 nothing is asserted.
  | relock hpc | test_ended hpc => exact fun hmode => by cases hmode
  | _ => trivial

/-- The books: the mutexes and the roster are in order, the assertion at the
    doctor's place holds, the batches so far were complete, and all but the one
    the doctor still owes for are paid. -/
structure Books (l : Ledger patients pharmacists) : Prop where
  inOrder : InOrder l.clinic
  asserted : outline l l.clinic.doctor
  complete : ∀ batch ∈ l.batches, Complete batch
  paid : ∃ n, l.used = List.replicate n MIN_MEDICINE_REQUIRED ∧
    n + l.clinic.doctor.owes = l.batches.length

theorem books_init (medicine_status : MedicineStatus) :
    Books (opening patients pharmacists medicine_status) where
  inOrder := inOrder_init medicine_status
  asserted := trivial
  complete := fun _ h => by cases h
  paid := ⟨0, rfl, rfl⟩

/-- The doctor begins to owe when it completes a batch, and pays once. -/
theorem paid_doctor (h : Books l) (hstep : ledgerStep l .doctor = some l') :
    ∃ n, l'.used = List.replicate n MIN_MEDICINE_REQUIRED ∧
      n + l'.clinic.doctor.owes = l'.batches.length := by
  rcases ledgerStep_eq_some hstep with ⟨s', hs, rfl⟩
  rcases h.paid with ⟨n, hused, hlen⟩
  have hasserted := h.asserted
  simp only [step] at hs
  cases doctor_moves hs with
  -- A batch is written down in the same step in which the doctor begins to owe.
  | drain_empty hpc hempty =>
      rw [hpc] at hlen
      refine ⟨n, by simp [medicineUsed, hpc, hused], ?_⟩
      simp only [batchTaken, hpc, if_pos hempty, List.length_append, ← hlen]
      rfl
  | drain hpc hmore =>
      rw [hpc] at hlen
      refine ⟨n, by simp [medicineUsed, hpc, hused], ?_⟩
      simp only [batchTaken, hpc, if_neg hmore, List.append_nil, ← hlen]
      rfl
  -- What is used is what the count of the medicine goes down by.
  | consume hpc =>
      rw [hpc] at hlen
      refine ⟨n + 1, ?_, ?_⟩
      · rw [List.replicate_succ', ← hused]
        simp [medicineUsed, hpc]
      · simp only [batchTaken, hpc, List.append_nil, ← hlen]
        rfl
  -- A complete batch is not empty, so the doctor goes on to pay.
  | lock_treat_nobody hpc hfree hcount =>
      rw [hpc] at hasserted
      rw [patientCount_complete hasserted.2] at hcount
      exact absurd (by decide) hcount
  | _ hpc =>
      rw [hpc] at hlen
      refine ⟨n, by simp [medicineUsed, hpc, hused], ?_⟩
      simp only [batchTaken, hpc, List.append_nil, ← hlen]
      rfl

/-- Every batch completed by a step is complete. -/
theorem complete_batchTaken (h : Books l) {t : Thread patients pharmacists} (hok : OneJoins l t)
    (hmem : batch ∈ batchTaken l.clinic t) : Complete batch := by
  have hasserted := h.asserted
  cases t with
  | doctor =>
      cases hpc : l.clinic.doctor with
      | drain taken =>
          rw [hpc] at hasserted
          simp only [batchTaken, hpc] at hmem
          split_ifs at hmem with hempty
          · rw [List.mem_singleton.mp hmem]
            rcases hok (by rw [hpc]; rfl) with ⟨_, hone⟩
            exact complete_of_empty h.inOrder hpc hasserted (hone hempty) hempty
          · cases hmem
      | _ => simp [batchTaken, hpc] at hmem
  | patient p => cases hmem
  | pharmacist j => cases hmem
  | main => cases hmem

theorem books_step {t : Thread patients pharmacists} (h : Books l) (hok : OneJoins l t)
    (hstep : ledgerStep l t = some l') : Books l' := by
  rcases ledgerStep_eq_some hstep with ⟨s', hs, hl⟩
  have hclinic : l'.clinic = s' := by rw [hl]
  have hin : InOrder l'.clinic := by rw [hclinic]; exact h.inOrder.step hs
  have hbatches : l'.batches = l.batches ++ batchTaken l.clinic t := by rw [hl]
  have hcomplete : ∀ batch ∈ l'.batches, Complete batch := by
    intro batch hmem
    rw [hbatches, List.mem_append] at hmem
    exact hmem.elim (h.complete batch) fun hmem => complete_batchTaken h hok hmem
  -- Where the doctor stands still, the assertion is kept and nothing is paid.
  have hothers : l'.clinic.doctor = l.clinic.doctor → l'.batches = l.batches → l'.used = l.used →
      outline l' l.clinic.doctor → Books l' := by
    intro hdoctor hb hu hout
    refine ⟨hin, by rw [hdoctor]; exact hout, hcomplete, ?_⟩
    rw [hdoctor, hb, hu]
    exact h.paid
  cases t with
  | doctor => exact ⟨hin, outline_doctor h.inOrder h.asserted hok hstep, hcomplete, paid_doctor h hstep⟩
  | patient p =>
      rcases patient_frame hs with ⟨_, _, hdoctor, _, _, _, hmed, _⟩
      rcases grown_patient h.inOrder hstep with ⟨hgrown, hne⟩
      refine hothers (by rw [hclinic, hdoctor]) (by rw [hl]; exact List.append_nil _)
        (by rw [hl]; exact List.append_nil _) ?_
      exact outline_keep (by rw [hclinic, hmed]) hgrown hne _ h.asserted
  | pharmacist j =>
      rcases pharmacist_frame hs with ⟨_, hdoctor, _, _, _, hqueue, hmed, _⟩
      refine hothers (by rw [hclinic, hdoctor]) (by rw [hl]; exact List.append_nil _)
        (by rw [hl]; exact List.append_nil _) ?_
      rw [← hclinic] at hqueue hmed
      refine outline_keep hmed (fun batch hg => hg.congr hmed hqueue (by rw [hl]; rfl)) ?_ _ h.asserted
      rw [hqueue]
      exact id
  | main =>
      rcases main_frame hs with ⟨hdoctor, _, _, _, hqueue, hmed⟩
      refine hothers (by rw [hclinic, hdoctor]) (by rw [hl]; exact List.append_nil _)
        (by rw [hl]; exact List.append_nil _) ?_
      rw [← hclinic] at hqueue hmed
      refine outline_keep hmed (fun batch hg => hg.congr hmed hqueue (by rw [hl]; rfl)) ?_ _ h.asserted
      rw [hqueue]
      exact id

/-- What the books say. -/
theorem Books.batched (h : Books l) : Batched l where
  complete := h.complete
  waiting p hp := by
    rcases h.inOrder.roster with ⟨_, q, _, hr⟩
    exact hr.inside p (List.mem_append_left q hp)
  used_eq := by
    rcases h.paid with ⟨n, hused, hlen⟩
    rw [hused, ← hlen, Nat.add_sub_cancel]
  stocked batch hpc := by
    have hasserted := h.asserted
    rw [hpc] at hasserted
    exact hasserted.1
  safe hpc := by
    have hasserted := h.asserted
    rw [hpc] at hasserted
    exact hasserted

end Outline

/-- In a run in which, each time, one patient is added between the doctor's count
    and where it finds the queue empty, every batch is of three different
    patients who wait, and three units of medicine have been used for it. -/
theorem batches_complete (patients pharmacists : Nat) (medicine_status : MedicineStatus)
    (l : Ledger patients pharmacists)
    (h : Reaches ledgerStep OneJoins (opening patients pharmacists medicine_status) l) :
    Batched l := by
  have hbooks : Books l :=
    h.invariant (books_init medicine_status) fun _ _ _ hv hok hstep => books_step hv hok hstep
  exact hbooks.batched

instance {patients pharmacists : Nat} (l : Ledger patients pharmacists) :
    ∀ t, Decidable (OneJoins l t)
  | .doctor =>
    inferInstanceAs (Decidable (l.clinic.doctor.drains = true →
      l.joined ≤ 1 ∧ (queue_is_empty l.clinic.patient_queue = true → l.joined = 1)))
  | .patient _ => isTrue trivial
  | .pharmacist _ => isTrue trivial
  | .main => isTrue trivial

/-- Two patients come and wake the doctor, and a third one comes when the doctor
    has counted the two. -/
def lateArrival {patients pharmacists : Nat} (p q r : Fin patients) :
    List (Thread patients pharmacists) :=
  List.replicate 5 .doctor ++ List.replicate 8 (.patient p) ++ List.replicate 10 (.patient q) ++
    List.replicate 7 .doctor ++ List.replicate 4 (.patient r) ++ List.replicate 15 .doctor

/-- The doctor treats all three. -/
theorem batches_complete_run :
    ∃ l, Reaches ledgerStep OneJoins (opening 3 0 .RECEIVED) l ∧
      l.batches = [[some 0, some 1, some 2]] ∧ l.used = [3] ∧ Batched l := by
  have hok : Meets ledgerStep OneJoins (opening 3 0 .RECEIVED) (lateArrival 0 1 2) := by decide +kernel
  have hend : (run ledgerStep (opening 3 0 .RECEIVED) (lateArrival 0 1 2)).map
      (fun l => (l.batches, l.used)) = some ([[some 0, some 1, some 2]], [3]) := by decide +kernel
  rcases Option.map_eq_some_iff.mp hend with ⟨l, hrun, hpair⟩
  rcases Prod.mk.inj hpair with ⟨hbatches, hused⟩
  have hreach := reaches_of_run hrun hok
  exact ⟨l, hreach, hbatches, hused, batches_complete 3 0 .RECEIVED l hreach⟩

/-- Two patients are enough for the doctor to wake up, and if nobody else comes
    it treats two. -/
theorem batch_of_two :
    ¬ ∀ (patients pharmacists : Nat) (medicine_status : MedicineStatus)
      (l : Ledger patients pharmacists),
      Reachable ledgerStep (opening patients pharmacists medicine_status) l → Batched l := by
  intro hclaim
  have hend : (run ledgerStep (opening 2 0 .RECEIVED)
      (List.replicate 5 .doctor ++ List.replicate 8 (.patient 0) ++ List.replicate 10 (.patient 1) ++
        List.replicate 16 .doctor)).map (fun l => l.batches) = some [[some 0, some 1]] := by
    decide +kernel
  rcases Option.map_eq_some_iff.mp hend with ⟨l, hrun, hbatches⟩
  have hbatched := hclaim 2 0 .RECEIVED l (reachable_of_run hrun)
  rcases hbatched.complete [some 0, some 1] (by rw [hbatches]; exact List.mem_singleton_self _) with
    ⟨treated, htreated, hlen, _⟩
  have htwo := congrArg List.length htreated
  rw [List.length_map, hlen] at htwo
  cases htwo

end Lab9

end OsLabs
