import OsLabs.Core.Locks
import OsLabs.Lab9.Clinic

/-!
# The Order of the Locks

A thread that waits for a mutex and has another one is the doctor, in four
places, or a pharmacist that has come forward, in one. The doctor keeps its own
mutex while it looks at the medicine and while it counts the patients. The
pharmacist keeps the mutex of the medicine while it takes the doctor's to wake
it up. So the two take the mutexes of the doctor and of the medicine in opposite
orders, and can wait for each other.

Nothing else can go wrong. Where the doctor is not about to look at the
medicine, or no pharmacist is about to wake it up, the mutexes can be put in an
order in which everybody takes them, another order from state to state. And so
a run is free of circles exactly when the doctor never turns to the medicine
while a pharmacist is about to wake it up, and no pharmacist comes forward while
the doctor is turning to the medicine. The code has nothing that sees to it.

## Main definitions

* `mutexRank`: The order of the mutexes, by where the doctor is.
* `NoCircle`: No threads wait for each other in a circle.
* `ComesForward`: A pharmacist is about to find too little medicine.
* `Staggered`: A step does not bring the doctor and a pharmacist together.
* `CircleFree`: A step leads into no circle.
* `shortage`: A run to where there is no medicine left.

## Theorems

* `doctor_blocked`, `pharmacist_blocked`, `patient_blocked`, `main_blocked`: Who
  waits with a mutex in hand.
* `circularWait_iff`: What a circle consists of.
* `doctor_turns`, `pharmacist_forward`: The steps that can close one.
* `circleFree_iff_staggered`: One step.
* `no_circle_iff_staggered`: Any run.
* `no_circle_iff_staggered_run`: A run without a circle.
* `doctor_and_pharmacist_wait`: The same run, one step longer.
-/

namespace OsLabs

namespace Lab9

section Order

variable {patients pharmacists : Nat} {s s' : State patients pharmacists}

theorem doctor_blocked {pc : DoctorPc patients} {m n : Mutex} (hm : pc.wants = some m)
    (hn : pc.holds n = true) :
    pc = .lock_medicine ∧ m = .medicine ∧ n = .doctor ∨
      (∃ med_count pharm_waiting, pc = .lock_count med_count pharm_waiting) ∧ m = .queue ∧
        n = .doctor ∨
      (∃ batch, pc = .lock_consume batch) ∧ m = .medicine ∧ n = .queue := by
  cases pc <;> cases n <;> simp_all [DoctorPc.wants, DoctorPc.holds]

theorem pharmacist_blocked {pc : PharmacistPc} {m n : Mutex} (hm : pc.wants = some m)
    (hn : pc.holds n = true) : pc = .summon ∧ m = .doctor ∧ n = .medicine := by
  cases pc <;> cases n <;> simp_all [PharmacistPc.wants, PharmacistPc.holds]

theorem patient_blocked {pc : PatientPc} {m n : Mutex} (hm : pc.wants = some m) :
    pc.holds n = false := by
  cases pc <;> cases n <;> simp_all [PatientPc.wants, PatientPc.holds]

theorem main_blocked {pc : MainPc} {m n : Mutex} (hm : pc.wants = some m) :
    pc.holds n = false := by
  cases pc <;> cases n <;> simp_all [MainPc.wants, MainPc.holds]

/-- The order of the mutexes. The doctor goes from its own to that of the queue
    or of the medicine, and from that of the queue to that of the medicine; the
    pharmacists go from that of the medicine to the doctor's. -/
def mutexRank : DoctorPc patients → Mutex → Nat
  | .lock_consume _, .queue => 0
  | .lock_consume _, .medicine => 1
  | .lock_consume _, .doctor => 2
  | .lock_medicine, .doctor => 0
  | .lock_medicine, .medicine => 1
  | .lock_medicine, .queue => 2
  | _, .medicine => 0
  | _, .doctor => 1
  | _, .queue => 2

/-- A circle is the doctor, which has its own mutex and wants that of the
    medicine, and a pharmacist that has the latter and wants the former. -/
theorem circularWait_iff : CircularWait s.wants s.holds ↔
    s.doctor = .lock_medicine ∧ ∃ j, s.pharmacist j = .summon := by
  constructor
  · intro hcircle
    by_contra hnone
    -- The order depends on where the doctor is, and that is all it depends on.
    refine not_circularWait_of_rank (mutexRank s.doctor) ?_ hcircle
    intro t m n hm hn
    cases t with
    | doctor =>
        rcases doctor_blocked hm hn with ⟨hpc, rfl, rfl⟩ | ⟨⟨_, _, hpc⟩, rfl, rfl⟩ |
          ⟨⟨_, hpc⟩, rfl, rfl⟩
        · rw [hpc]; exact Nat.zero_lt_one
        · rw [hpc]; exact Nat.one_lt_two
        · rw [hpc]; exact Nat.zero_lt_one
    | patient p => rw [State.holds, patient_blocked hm] at hn; cases hn
    | pharmacist j =>
        rcases pharmacist_blocked hm hn with ⟨hpc, rfl, rfl⟩
        -- The doctor is not at the one place where this order is the wrong way round.
        have hdoctor : s.doctor ≠ .lock_medicine := fun h => hnone ⟨h, j, hpc⟩
        cases hpc : s.doctor <;> simp_all [mutexRank]
    | main => rw [State.holds, main_blocked hm] at hn; cases hn
  · rintro ⟨hdoctor, j, hj⟩
    -- Each of the two has what the other wants.
    have hd : s.wants .doctor = some .medicine := by rw [State.wants, hdoctor]; rfl
    have hp : s.wants (.pharmacist j) = some .doctor := by rw [State.wants, hj]; rfl
    have hd' : s.holds .doctor .doctor = true := by rw [State.holds, hdoctor]; rfl
    have hp' : s.holds (.pharmacist j) .medicine = true := by rw [State.holds, hj]; rfl
    exact circularWait_of_two hd hp' hp hd'

end Order

section Runs

variable {patients pharmacists : Nat} {s s' : State patients pharmacists}

/-- The pharmacist is about to find that there is too little medicine. -/
def ComesForward (s : State patients pharmacists) (j : Fin pharmacists) : Prop :=
  s.medicine_count < MIN_MEDICINE_REQUIRED ∧
    (s.pharmacist j = .check ∨ s.pharmacist j = .recheck ∧ s.all_patients_done = false)

/-- The doctor does not turn to the medicine while a pharmacist is about to
    wake it up, and no pharmacist comes forward while the doctor is turning to
    the medicine. -/
def Staggered (s : State patients pharmacists) : Thread patients pharmacists → Prop
  | .doctor => s.doctor = .inner 0 → s.all_patients_done = false → ∀ j, s.pharmacist j ≠ .summon
  | .pharmacist j => ComesForward s j → s.doctor ≠ .lock_medicine
  | .patient _ => True
  | .main => True

/-- No threads wait for each other in a circle. -/
def NoCircle (s : State patients pharmacists) : Prop := ¬ CircularWait s.wants s.holds

/-- The step leads into no circle. -/
def CircleFree (s : State patients pharmacists) (t : Thread patients pharmacists) : Prop :=
  ∀ s', step s t = some s' → NoCircle s'

/-- When the doctor turns to the medicine. -/
theorem doctor_turns (hstep : doctor_thread_routine s = some s') :
    s'.doctor = .lock_medicine ↔ s.doctor = .inner 0 ∧ s.all_patients_done = false := by
  constructor
  · intro h
    cases doctor_moves hstep with
    | inner hpc hopen => exact ⟨hpc, hopen⟩
    | _ => cases h
  · rintro ⟨hpc, hopen⟩
    simp only [doctor_thread_routine, hpc, Option.some.injEq] at hstep
    rw [← hstep]
    simp [hopen]

/-- A pharmacist that comes forward is counted and goes to summon the doctor,
    and no other step of a pharmacist does either. -/
theorem pharmacist_forward {j : Fin pharmacists} (hstep : pharmacist_thread_routine s j = some s') :
    ComesForward s j ∧ s'.waiting_pharmacists = s.waiting_pharmacists + 1 ∧
        s'.pharmacist j = .summon ∨
      ¬ ComesForward s j ∧ s'.waiting_pharmacists = s.waiting_pharmacists ∧
        s'.pharmacist j ≠ .summon := by
  have hless : MIN_MEDICINE_REQUIRED < MEDICINE_CABINET_CAPACITY := by decide
  cases pharmacist_moves hstep with
  | few hpc hfew => exact Or.inl ⟨⟨hfew, hpc⟩, rfl, Function.update_self ..⟩
  -- The test for a full cabinet and the one for too little medicine exclude each other.
  | full hpc hopen hfull =>
      refine Or.inr ⟨fun hforward => ?_, rfl, by simp [State.setPharmacist]⟩
      have hfew := hforward.1
      omega
  | all_done hpc hdone hfull =>
      refine Or.inr ⟨?_, rfl, by simp [State.setPharmacist]⟩
      rintro ⟨hfew, hcheck | ⟨_, hopen⟩⟩
      · have hmany := hfull hcheck
        omega
      · rw [hdone] at hopen
        cases hopen
  | enough hpc hroom henough =>
      exact Or.inr ⟨fun hforward => henough hforward.1, rfl, by simp [State.setPharmacist]⟩
  | _ hpc => exact Or.inr ⟨by simp [ComesForward, hpc], rfl, by simp [State.setPharmacist]⟩

/-- When a pharmacist comes forward. -/
theorem pharmacist_summons {j : Fin pharmacists} (hstep : pharmacist_thread_routine s j = some s') :
    s'.pharmacist j = .summon ↔ ComesForward s j := by
  rcases pharmacist_forward hstep with ⟨hforward, _, hsummon⟩ | ⟨hnot, _, hother⟩
  · exact iff_of_true hsummon hforward
  · exact iff_of_false hother hnot

/-- Where there is no circle, a step leads into none exactly when it is
    staggered. -/
theorem circleFree_iff_staggered {t : Thread patients pharmacists}
    (h : NoCircle s) (hstep : step s t = some s') : CircleFree s t ↔ Staggered s t := by
  have hnext : CircleFree s t ↔ NoCircle s' := by
    refine ⟨fun hfree => hfree s' hstep, fun hnone u hu => ?_⟩
    rw [hstep] at hu
    rwa [← Option.some.inj hu]
  rw [NoCircle, circularWait_iff] at h
  rw [hnext, NoCircle, circularWait_iff]
  cases t with
  | doctor =>
      rcases doctor_frame hstep with ⟨_, hpharmacist, _⟩
      -- The pharmacists stay where they are.
      rw [hpharmacist, doctor_turns hstep]
      exact ⟨fun hno hpc hgo j hj => hno ⟨⟨hpc, hgo⟩, j, hj⟩,
        fun hok hc => hc.2.elim fun j hj => hok hc.1.1 hc.1.2 j hj⟩
  | patient p =>
      rcases patient_frame hstep with ⟨_, _, hdoctor, hpharmacist, _⟩
      rw [hdoctor, hpharmacist]
      exact iff_of_true h trivial
  | pharmacist j =>
      rcases pharmacist_frame hstep with ⟨⟨pc, hpharmacist⟩, hdoctor, _⟩
      rw [hdoctor]
      constructor
      · intro hno hforward hpc
        exact hno ⟨hpc, j, (pharmacist_summons hstep).mpr hforward⟩
      · rintro hok ⟨hpc, k, hk⟩
        -- Another pharmacist at this place would have been there before.
        by_cases hkj : k = j
        · rw [hkj] at hk
          exact hok ((pharmacist_summons hstep).mp hk) hpc
        · rw [hpharmacist, Function.update_of_ne hkj] at hk
          exact h ⟨hpc, k, hk⟩
  | main =>
      rcases main_frame hstep with ⟨hdoctor, _, hpharmacist, _⟩
      rw [hdoctor, hpharmacist]
      exact iff_of_true h trivial

/-- At the beginning nobody waits. -/
theorem no_circle_init (medicine_status : MedicineStatus) :
    NoCircle (clinic_init patients pharmacists medicine_status) := by
  rw [NoCircle, circularWait_iff]
  rintro ⟨hdoctor, _⟩
  cases hdoctor

end Runs

/-- No step of a run leads into a circle of threads that wait for each other
    exactly when all of them are staggered, and whatever state staggered steps
    reach has no such circle. -/
theorem no_circle_iff_staggered (patients pharmacists : Nat) (medicine_status : MedicineStatus) :
    (∀ threads, Meets step CircleFree (clinic_init patients pharmacists medicine_status) threads ↔
      Meets step Staggered (clinic_init patients pharmacists medicine_status) threads) ∧
    ∀ s, Reaches step Staggered (clinic_init patients pharmacists medicine_status) s →
      NoCircle s := by
  constructor
  · intro threads
    have hkeep : ∀ (v : State patients pharmacists) t w, NoCircle v → CircleFree v t →
        step v t = some w → NoCircle w := fun v t w _ hfree hstep => hfree w hstep
    have hiff : ∀ (v : State patients pharmacists) t w, NoCircle v → step v t = some w →
        (CircleFree v t ↔ Staggered v t) := fun v t w hv hstep => circleFree_iff_staggered hv hstep
    exact meets_congr hiff hkeep threads (no_circle_init medicine_status)
  · intro s hreach
    refine hreach.invariant (no_circle_init medicine_status) fun v t w hv hok hstep => ?_
    exact (circleFree_iff_staggered hv hstep).mpr hok w hstep

/-- A patient from the street to the loop where it waits for its treatment. -/
def arrival {patients pharmacists : Nat} (p : Fin patients) : List (Thread patients pharmacists) :=
  List.replicate 8 (.patient p)

/-- Two patients, the second of whom wakes the doctor, and the doctor's round
    in which it treats the two and goes back to sleep. -/
def treatmentRound {patients pharmacists : Nat} (p q : Fin patients) : List (Thread patients pharmacists) :=
  arrival p ++ arrival q ++ List.replicate 2 (.patient q) ++ List.replicate 29 .doctor

/-- After two rounds the medicine is used up. Two more patients wake the doctor,
    and a pharmacist who has found no medicine is about to wake it up as well. -/
def shortage {patients pharmacists : Nat} (p : Nat → Fin patients) (j : Fin pharmacists) :
    List (Thread patients pharmacists) :=
  List.replicate 5 .doctor ++ treatmentRound (p 0) (p 1) ++ treatmentRound (p 2) (p 3) ++
    arrival (p 4) ++ arrival (p 5) ++ List.replicate 2 (.patient (p 5)) ++
    List.replicate 2 .doctor ++ List.replicate 3 (.pharmacist j)

instance {patients pharmacists : Nat} (s : State patients pharmacists) (j : Fin pharmacists) :
    Decidable (ComesForward s j) :=
  inferInstanceAs (Decidable (_ ∧ (_ ∨ _ ∧ _)))

instance {patients pharmacists : Nat} (s : State patients pharmacists) :
    ∀ t, Decidable (Staggered s t)
  | .doctor =>
    inferInstanceAs (Decidable (s.doctor = .inner 0 → s.all_patients_done = false →
      ∀ j, s.pharmacist j ≠ .summon))
  | .pharmacist j => inferInstanceAs (Decidable (ComesForward s j → s.doctor ≠ .lock_medicine))
  | .patient _ => isTrue trivial
  | .main => isTrue trivial

/-- Up to there nobody waits in a circle. -/
theorem no_circle_iff_staggered_run :
    Meets step CircleFree (clinic_init 6 1 .RECEIVED) (shortage (Fin.ofNat 6) 0) ∧
    ∃ s, run step (clinic_init 6 1 .RECEIVED) (shortage (Fin.ofNat 6) 0) = some s ∧
      s.pharmacist 0 = .summon ∧ NoCircle s := by
  rcases no_circle_iff_staggered 6 1 .RECEIVED with ⟨hiff, hnone⟩
  have hok : Meets step Staggered (clinic_init 6 1 .RECEIVED) (shortage (Fin.ofNat 6) 0) := by
    decide +kernel
  have hend : (run step (clinic_init 6 1 .RECEIVED) (shortage (Fin.ofNat 6) 0)).map
      (fun s => s.pharmacist 0) = some .summon := by decide +kernel
  rcases Option.map_eq_some_iff.mp hend with ⟨s, hrun, hpharmacist⟩
  exact ⟨(hiff _).mpr hok, s, hrun, hpharmacist, hnone s (reaches_of_run hrun hok)⟩

/-- One step more, and the doctor waits for the mutex of the medicine, and the
    pharmacist, who has it, for the doctor's. -/
theorem doctor_and_pharmacist_wait :
    ¬ ∀ (patients pharmacists : Nat) (medicine_status : MedicineStatus)
      (s : State patients pharmacists),
      Reachable step (clinic_init patients pharmacists medicine_status) s →
        NoCircle s := by
  intro hclaim
  have hend : (run step (clinic_init 6 1 .RECEIVED) (shortage (Fin.ofNat 6) 0 ++ [.doctor])).map
      (fun s => (s.doctor, s.pharmacist 0)) = some (.lock_medicine, .summon) := by decide +kernel
  rcases Option.map_eq_some_iff.mp hend with ⟨s, hrun, hpair⟩
  rcases Prod.mk.inj hpair with ⟨hdoctor, hpharmacist⟩
  exact hclaim 6 1 .RECEIVED s (reachable_of_run hrun)
    (circularWait_iff.mpr ⟨hdoctor, 0, hpharmacist⟩)

end Lab9

end OsLabs
