import OsLabs.Lab7.Delivery

/-!
# What the Printers' Test Tells

A printer decides whether there is something to print by comparing `out` with
`in`. Here the test is looked at on its own: every insertion and every removal
is one step, so that no process ever comes between a copy and its update and
what goes wrong with the ring in `Delivery` cannot go wrong.

Then `in` and `out` are the ring positions of the documents stored and taken so
far, and they are equal when the difference of the two numbers is a multiple of
the size of the ring. The semaphore keeps it from going beyond that size but
lets it get there, and a ring of `MAX_MESSAGES` documents looks empty. From
then on no printer takes anything, so nothing is posted, and the clients stop
one after another at the semaphore.

## Main definitions

* `AtomicEvent`, `atomicStep`: The spooler with insertions and removals as
  single steps.
* `Waiting`, `Stuck`: A document waits, and nobody will ever take it.
* `Tells`: The test tells whether a document waits, and nothing is stuck.
* `SpareSlot`: An insertion leaves one slot unused.

## Theorems

* `reachable_of_atomicStep`: What happens in a single step happens in the
  spooler.
* `insertion_spec`, `removal_spec`: The two sequences of steps.
* `stuck_forever`: What is stuck stays so.
* `counted_step`: In between, the positions are those of the two numbers.
* `tells_iff_spareSlot`: The test tells exactly in the runs that keep a slot
  unused.
* `full_ring_looks_empty`: A run that uses them all.
-/

namespace OsLabs

namespace Lab7

variable {clients printers : Nat}

/-- From `sem_wait` up to the update of `in`. -/
def insertion (c : Fin clients) : List (Event clients printers) :=
  [.sem_wait c, .copy_in c, .update_in c]

/-- From the test up to the update of `out`. -/
def removal (p : Fin printers) : List (Event clients printers) :=
  [.test p, .copy_out p, .update_out p]

inductive AtomicEvent (clients printers : Nat)
  | set_doc (c : Fin clients) (rand : Nat → Nat)
  | insert (c : Fin clients)
  | remove (p : Fin printers)
  | print (p : Fin printers)
  | sem_post (p : Fin printers)

/-- The spooler with insertions and removals as single steps. A printer whose
    test fails sleeps and comes back to it. -/
def atomicStep (s : State clients printers) :
    AtomicEvent clients printers → Option (State clients printers)
  | .set_doc c rand => step s (.set_doc c rand)
  | .insert c => run step s (insertion c)
  | .remove p => if s.out ≠ s.in_ then run step s (removal p) else step s (.test p)
  | .print p => step s (.print p)
  | .sem_post p => step s (.sem_post p)

/-- A document has been stored and not yet taken. -/
def Waiting (s : State clients printers) : Prop := s.taken.length < s.stored.length

/-- Documents wait, every printer sees an empty ring, and every client is
    blocked on the semaphore. -/
structure Stuck (s : State clients printers) : Prop where
  waiting : Waiting s
  looks_empty : s.out = s.in_
  printers : ∀ p, s.printer p = .idle
  clients : ∀ c, (∃ doc, s.client c = .made doc) ∧ s.sem = 0

/-- The test tells whether a document waits, and nothing is stuck. -/
structure Tells (s : State clients printers) : Prop where
  empty_iff : s.out = s.in_ ↔ ¬ Waiting s
  moves : ¬ Stuck s

/-- An insertion leaves at least one slot of the ring unused. -/
def SpareSlot (s : State clients printers) : AtomicEvent clients printers → Prop
  | .insert _ => s.stored.length + 1 < s.taken.length + MAX_MESSAGES
  | _ => True

section Atomic

variable {s t : State clients printers}

theorem reachable_of_step {e : Event clients printers} (hstep : step s e = some t) :
    Reachable step s t :=
  Reaches.step s t e Reaches.refl trivial hstep

theorem reachable_of_atomicStep {e : AtomicEvent clients printers}
    (hstep : atomicStep s e = some t) : Reachable step s t := by
  cases e with
  | set_doc c rand => exact reachable_of_step (e := .set_doc c rand) hstep
  | insert c => exact reachable_of_run hstep
  | remove p =>
      simp only [atomicStep] at hstep
      split_ifs at hstep
      · exact reachable_of_run hstep
      · exact reachable_of_step hstep
  | print p => exact reachable_of_step (e := .print p) hstep
  | sem_post p => exact reachable_of_step (e := .sem_post p) hstep

/-- An insertion takes a token, and stores the client's document at `in`. -/
theorem insertion_spec (c : Fin clients) (hrun : run step s (insertion c) = some t) :
    ∃ doc, s.client c = .made doc ∧ 0 < s.sem ∧ t.sem = s.sem - 1 ∧ t.in_ = next s.in_ ∧
      t.out = s.out ∧ t.stored = s.stored ++ [doc.val] ∧ t.taken = s.taken ∧
      t.client = Function.update s.client c .ready ∧ t.printer = s.printer := by
  rcases run_cons_eq_some.mp hrun with ⟨u, hwait, hrun⟩
  rcases run_cons_eq_some.mp hrun with ⟨v, hcopy, hrun⟩
  rcases run_cons_eq_some.mp hrun with ⟨w, hupdate, hrun⟩
  rcases (step_sem_wait c).mp hwait with ⟨doc, hmade, hsem, rfl⟩
  rcases (step_copy_in c).mp hcopy with ⟨doc', hentered, rfl⟩
  rcases (step_update_in c).mp hupdate with ⟨_, rfl⟩
  cases hrun
  -- What is copied is what the client came in with.
  simp only [State.setClient, Function.update_self, Client.entered.injEq] at hentered
  subst hentered
  refine ⟨doc, hmade, hsem, rfl, rfl, rfl, rfl, rfl, ?_, rfl⟩
  simp only [State.setClient, Function.update_idem]

/-- A removal takes the document at `out` and moves on. -/
theorem removal_spec (p : Fin printers) (hrun : run step s (removal p) = some t) :
    ∃ doc, s.printer p = .idle ∧ t.sem = s.sem ∧ t.in_ = s.in_ ∧ t.out = next s.out ∧
      t.stored = s.stored ∧ t.taken = s.taken ++ [(p, doc)] ∧ t.client = s.client ∧
      t.printer = Function.update s.printer p (.holding doc) := by
  rcases run_cons_eq_some.mp hrun with ⟨u, htest, hrun⟩
  rcases run_cons_eq_some.mp hrun with ⟨v, hcopy, hrun⟩
  rcases run_cons_eq_some.mp hrun with ⟨w, hupdate, hrun⟩
  rcases (step_test p).mp htest with ⟨hidle, rfl⟩
  rcases (step_copy_out p).mp hcopy with ⟨hfound, rfl⟩
  rcases (step_update_out p).mp hupdate with ⟨doc, htook, rfl⟩
  cases hrun
  simp only [State.setPrinter, Function.update_self, Printer.took.injEq] at htook
  -- Nothing can be copied unless the test has succeeded.
  by_cases hne : s.out ≠ s.in_
  · simp only [if_pos hne] at hfound htook ⊢
    refine ⟨doc, hidle, rfl, rfl, rfl, rfl, ?_, rfl, ?_⟩
    · simp only [State.setPrinter, htook]
    · simp only [State.setPrinter, Function.update_idem]
  · rw [if_neg hne, hidle] at hfound
    cases hfound

/-- Where everything is stuck a printer can only test again, in vain. -/
theorem stuck_step (h : Stuck s) {e : AtomicEvent clients printers}
    (hstep : atomicStep s e = some t) : t = s := by
  -- Every other step would need a document, a token or a printer that is not idle.
  cases e with
  | set_doc c rand =>
      rcases (h.clients c).1 with ⟨doc, hmade⟩
      rw [((step_set_doc c rand).mp hstep).1] at hmade
      cases hmade
  | insert c =>
      rcases insertion_spec c hstep with ⟨_, _, hsem, _⟩
      have hzero := (h.clients c).2
      omega
  | remove p =>
      simp only [atomicStep, h.looks_empty, ne_eq, not_true_eq_false, if_false] at hstep
      rw [((step_test p).mp hstep).2, if_neg (not_not.mpr h.looks_empty)]
  | print p =>
      rcases (step_print p).mp hstep with ⟨doc, hholding, _⟩
      rw [h.printers p] at hholding
      cases hholding
  | sem_post p =>
      have hdone := ((step_sem_post p).mp hstep).1
      rw [h.printers p] at hdone
      cases hdone

theorem stuck_forever (h : Stuck s) (hreach : Reachable atomicStep s t) : t = s := by
  have hsame : ∀ v e w, s = v → True → atomicStep v e = some w → s = w := by
    rintro v e w rfl _ hstep
    exact (stuck_step h hstep).symm
  exact (hreach.invariant rfl hsame).symm

end Atomic

section Counting

variable {s t : State clients printers}

/-- Between single steps nobody is between a copy and its update, and the
    positions are those of the numbers of documents stored and taken. -/
structure Counted (s : State clients printers) : Prop where
  tokens : Tokens s
  in_at : s.in_ = ring s.stored.length
  out_at : s.out = ring s.taken.length
  le : s.taken.length ≤ s.stored.length

theorem counted_start : Counted (start clients printers) where
  tokens := inv_start.tokens
  in_at := rfl
  out_at := rfl
  le := Nat.le_refl _

theorem tokens_of_reaches (h : Tokens s) (hreach : Reachable step s t) : Tokens t :=
  hreach.invariant h fun _ _ _ hv _ hstep => tokens_step hv hstep

/-- The semaphore lets no more documents wait than there are slots. -/
theorem Counted.bounded (h : Counted s) : s.stored.length ≤ s.taken.length + MAX_MESSAGES := by
  have htokens := h.tokens
  unfold Tokens at htokens
  omega

/-- The two positions are equal when the ring is empty, and when it is full. -/
theorem Counted.out_eq_in_iff (h : Counted s) :
    s.out = s.in_ ↔ s.stored.length = s.taken.length ∨
      s.stored.length = s.taken.length + MAX_MESSAGES := by
  have hle := h.le
  have hbound := h.bounded
  -- Two numbers at most a turn of the ring apart are at one position in two cases.
  have hturn := circular_eq_iff MAX_MESSAGES (Nat.succ_pos 19) s.taken.length
    (s.stored.length - s.taken.length) (by omega)
  rw [show s.taken.length + (s.stored.length - s.taken.length) = s.stored.length by omega]
    at hturn
  rw [h.in_at, h.out_at, eq_comm, ring, ring, hturn]
  omega

theorem counted_step (h : Counted s) {e : AtomicEvent clients printers}
    (hstep : atomicStep s e = some t) : Counted t := by
  -- That the tokens are accounted for is known of every state of the spooler.
  have htokens := tokens_of_reaches h.tokens (reachable_of_atomicStep hstep)
  cases e with
  | set_doc c rand =>
      rcases (step_set_doc c rand).mp hstep with ⟨_, rfl⟩
      exact ⟨htokens, h.in_at, h.out_at, h.le⟩
  | insert c =>
      rcases insertion_spec c hstep with ⟨doc, _, _, _, hin, hout, hstored, htaken, _⟩
      refine ⟨htokens, ?_, ?_, ?_⟩
      · rw [hin, hstored, h.in_at, next_ring, List.length_append, List.length_singleton]
      · rw [hout, htaken, h.out_at]
      · rw [hstored, htaken, List.length_append]
        exact Nat.le_add_right_of_le h.le
  | remove p =>
      simp only [atomicStep] at hstep
      split_ifs at hstep with hne
      · rcases removal_spec p hstep with ⟨doc, _, _, hin, hout, hstored, htaken, _⟩
        have hlt : s.taken.length < s.stored.length := by
          -- With nothing stored the test would have failed.
          have hdiff := (not_congr h.out_eq_in_iff).mp hne
          have hle := h.le
          omega
        refine ⟨htokens, ?_, ?_, ?_⟩
        · rw [hin, hstored, h.in_at]
        · rw [hout, htaken, h.out_at, next_ring, List.length_append, List.length_singleton]
        · rw [hstored, htaken, List.length_append, List.length_singleton]
          exact hlt
      · rcases (step_test p).mp hstep with ⟨_, rfl⟩
        rw [if_neg hne]
        exact h
  | print p =>
      rcases (step_print p).mp hstep with ⟨doc, _, rfl⟩
      exact ⟨htokens, h.in_at, h.out_at, h.le⟩
  | sem_post p =>
      rcases (step_sem_post p).mp hstep with ⟨_, rfl⟩
      exact ⟨htokens, h.in_at, h.out_at, h.le⟩

/-- The test tells exactly as long as the ring is not full. -/
theorem Counted.tells_iff (h : Counted s) :
    Tells s ↔ s.stored.length < s.taken.length + MAX_MESSAGES := by
  have hle := h.le
  have hbound := h.bounded
  have hmax : 0 < MAX_MESSAGES := by decide
  constructor
  · intro htells
    -- In a full ring documents wait, and it looks empty.
    by_contra hfull
    have hempty : s.out = s.in_ := h.out_eq_in_iff.mpr (Or.inr (by omega))
    exact htells.empty_iff.mp hempty (by unfold Waiting; omega)
  · intro hlt
    have hiff : s.out = s.in_ ↔ ¬ Waiting s := by
      rw [h.out_eq_in_iff, Waiting]
      omega
    exact ⟨hiff, fun hstuck => hiff.mp hstuck.looks_empty hstuck.waiting⟩

/-- Only an insertion can fill the ring. -/
theorem spareSlot_iff (hlt : s.stored.length < s.taken.length + MAX_MESSAGES)
    {e : AtomicEvent clients printers} (hstep : atomicStep s e = some t) :
    t.stored.length < t.taken.length + MAX_MESSAGES ↔ SpareSlot s e := by
  cases e with
  | set_doc c rand =>
      rcases (step_set_doc c rand).mp hstep with ⟨_, rfl⟩
      exact iff_of_true hlt trivial
  | insert c =>
      rcases insertion_spec c hstep with ⟨doc, _, _, _, _, _, hstored, htaken, _⟩
      rw [hstored, htaken, List.length_append, List.length_singleton]
      exact Iff.rfl
  | remove p =>
      refine iff_of_true ?_ trivial
      simp only [atomicStep] at hstep
      split_ifs at hstep with hne
      · rcases removal_spec p hstep with ⟨doc, _, _, _, _, hstored, htaken, _⟩
        rw [hstored, htaken, List.length_append]
        omega
      · rcases (step_test p).mp hstep with ⟨_, rfl⟩
        rw [if_neg hne]
        exact hlt
  | print p =>
      rcases (step_print p).mp hstep with ⟨doc, _, rfl⟩
      exact iff_of_true hlt trivial
  | sem_post p =>
      rcases (step_sem_post p).mp hstep with ⟨_, rfl⟩
      exact iff_of_true hlt trivial

/-- What holds in a run that keeps a slot unused. -/
def Roomy (s : State clients printers) : Prop :=
  Counted s ∧ s.stored.length < s.taken.length + MAX_MESSAGES

/-- The state after the step is one in which the test tells. -/
def TellsAfter (s : State clients printers) (e : AtomicEvent clients printers) : Prop :=
  ∀ t, atomicStep s e = some t → Tells t

theorem tellsAfter_iff (h : Roomy s) {e : AtomicEvent clients printers}
    (hstep : atomicStep s e = some t) : TellsAfter s e ↔ SpareSlot s e := by
  rw [← spareSlot_iff h.2 hstep, ← (counted_step h.1 hstep).tells_iff]
  refine ⟨fun hall => hall t hstep, fun ht u hu => ?_⟩
  rw [hstep, Option.some.injEq] at hu
  rw [← hu]
  exact ht

/-- With any number of clients and printers the test tells at the start, and it
    goes on to tell in every state of a run exactly when no insertion of the
    run uses the last slot. -/
theorem tells_iff_spareSlot (clients printers : Nat) :
    Tells (start clients printers) ∧
      ∀ events, Meets atomicStep TellsAfter (start clients printers) events ↔
        Meets atomicStep SpareSlot (start clients printers) events := by
  have hstart : Roomy (start clients printers) :=
    ⟨counted_start, (by decide : 0 < 0 + MAX_MESSAGES)⟩
  refine ⟨hstart.1.tells_iff.mpr hstart.2, fun events => ?_⟩
  refine meets_congr (fun v e w hv hstep => tellsAfter_iff hv hstep) ?_ events hstart
  intro v e w hv hok hstep
  have hw := counted_step hv.1 hstep
  exact ⟨hw, hw.tells_iff.mp (hok w hstep)⟩

end Counting

/-- A client stores as many documents as there are slots, while the printers
    have not looked yet, and makes one more. -/
def overfill (c : Fin clients) (rand : Nat → Nat) : List (AtomicEvent clients printers) :=
  (List.replicate MAX_MESSAGES [.set_doc c rand, .insert c]).flatten ++ [.set_doc c rand]

/-- The client is about to wait for the semaphore. -/
def Client.isMade : Client → Bool
  | .made _ => true
  | _ => false

/-- The printer is at its test. -/
def Printer.isIdle : Printer → Bool
  | .idle => true
  | _ => false

/-- With all slots in use the ring looks empty, and client and printer are
    stuck for good. -/
theorem full_ring_looks_empty :
    ∃ s, run atomicStep (start 1 1) (overfill 0 fun _ => 0) = some s ∧ Stuck s ∧ ¬ Tells s ∧
      ∀ t, Reachable atomicStep s t → t = s := by
  have hend : (run atomicStep (start 1 1) (overfill 0 fun _ => 0)).map
      (fun s => (decide (s.out = s.in_), s.sem, s.taken.length, s.stored.length,
        (s.printer 0).isIdle, (s.client 0).isMade))
        = some (true, 0, 0, 20, true, true) := by decide +kernel
  rcases Option.map_eq_some_iff.mp hend with ⟨s, hrun, hs⟩
  simp only [Prod.mk.injEq, decide_eq_true_eq] at hs
  rcases hs with ⟨hempty, hsem, htaken, hstored, hidle, hmade⟩
  have hstuck : Stuck s := by
    refine ⟨by unfold Waiting; omega, hempty, fun p => ?_, fun c => ?_⟩
    · rw [Subsingleton.elim p 0]
      cases hprinter : s.printer 0 with
      | idle => rfl
      | _ => rw [hprinter] at hidle; cases hidle
    · rw [Subsingleton.elim c 0]
      cases hclient : s.client 0 with
      | made doc => exact ⟨⟨doc, rfl⟩, hsem⟩
      | _ => rw [hclient] at hmade; cases hmade
  exact ⟨s, hrun, hstuck, fun htells => htells.moves hstuck, fun t => stuck_forever hstuck⟩

end Lab7

end OsLabs
