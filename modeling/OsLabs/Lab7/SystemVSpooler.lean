import OsLabs.Lab7.PosixSpooler

/-!
# The System V Print Spooler

`clients_systemv.c` and `printers_systemv.c` of lab7 as a transition system.
Like the POSIX version it has any number of clients that put documents into a
ring in shared memory, of 10 slots here, and any number of printers that take
them out. Here two semaphores count: the first the slots that are free, the
second the documents that wait. A client decrements the first, copies, updates
`in` and increments the second; a printer decrements the second, copies,
updates `out`, increments the first and then prints from its own copy.

A step is one of these actions. Both programs make documents of one size with
one function, which is the POSIX clients' too. What the client prints and how
long it sleeps at the end of its loop has no part in it.

The last five components of the state are history: the documents copied into
the ring, those copied out of it and by whom, what each printer has printed,
and how often each semaphore has been incremented. No step reads them.

`Accounts` is what the semaphores are for. Every slot is in one of six places:
free, with a client before its copy, with a client after it, waiting, with a
printer before its copy, or with a printer after it. It holds in every state,
however the processes interleave.

## Main definitions

* `Client`, `Printer`: Where a process stands.
* `State`, `Event`, `step`: The transition system.
* `start`: Its state after a client's `main` has set the semaphores.
* `Client.between`, `Printer.between`: The process is between its semaphores.
* `Accounts`: What the semaphores count.

## Theorems

* `step_set_doc`, ..., `step_print`: When each step can be taken and where it
  leads.
* `accounts_step`: What any step preserves.
* `semaphores_account`: The semaphores keep count, and somebody can go on.
* `semaphores_account_run`: One document in the ring.
-/

namespace OsLabs

namespace SystemV

open Lab7 (MSG_SIZE Doc set_doc)

def MAX_MSG : Nat := 10

/-- The position after this one. -/
def next (i : Fin MAX_MSG) : Fin MAX_MSG := ⟨(i + 1) % MAX_MSG, Nat.mod_lt _ (by decide)⟩

/-- Where a client stands in its loop. -/
inductive Client
  /-- At the top of the loop. -/
  | ready
  /-- The document is made; the decrement of semaphore 0 is next. -/
  | made (doc : Doc)
  /-- The copy into `jobs[in]` is next. -/
  | entered (doc : Doc)
  /-- The update of `in` is next. -/
  | copied
  /-- The increment of semaphore 1 is next. -/
  | updated

/-- Where a printer stands in its loop. -/
inductive Printer
  /-- At the decrement of semaphore 1. -/
  | idle
  /-- The copy from `jobs[out]` is next. -/
  | entered
  /-- The update of `out` is next. -/
  | took (doc : CharArray MSG_SIZE)
  /-- The increment of semaphore 0 is next. -/
  | updated (doc : CharArray MSG_SIZE)
  /-- Printing is next. -/
  | holding (doc : CharArray MSG_SIZE)

/-- The shared memory, the semaphores, the processes and the history. -/
structure State (clients printers : Nat) where
  jobs : Fin MAX_MSG → CharArray MSG_SIZE
  in_ : Fin MAX_MSG
  out : Fin MAX_MSG
  sem0 : Nat
  sem1 : Nat
  client : Fin clients → Client
  printer : Fin printers → Printer
  /-- The documents copied into the ring, in order. -/
  stored : List (CharArray MSG_SIZE)
  /-- The documents copied out of the ring, in order, with the printer that
      did. -/
  taken : List (Fin printers × CharArray MSG_SIZE)
  /-- The documents each printer has printed, in order. -/
  printed : Fin printers → List (CharArray MSG_SIZE)
  /-- How many insertions are completed by the increment of semaphore 1. -/
  insertions : Nat
  /-- How many takes are completed by the increment of semaphore 0. -/
  takes : Nat

inductive Event (clients printers : Nat)
  | set_doc (c : Fin clients) (rand : Nat → Nat)
  | wait_empty (c : Fin clients)
  | copy_in (c : Fin clients)
  | update_in (c : Fin clients)
  | post_full (c : Fin clients)
  | wait_full (p : Fin printers)
  | copy_out (p : Fin printers)
  | update_out (p : Fin printers)
  | post_empty (p : Fin printers)
  | print (p : Fin printers)

variable {clients printers : Nat}

def State.setClient (s : State clients printers) (c : Fin clients) (pc : Client) :
    State clients printers :=
  { s with client := Function.update s.client c pc }

def State.setPrinter (s : State clients printers) (p : Fin printers) (pc : Printer) :
    State clients printers :=
  { s with printer := Function.update s.printer p pc }

/-- What `strcpy` leaves in a printer's own array. A document fills it, so what
    it held before does not matter. -/
def fetched (s : State clients printers) : CharArray MSG_SIZE :=
  (CharArray.zero MSG_SIZE).strcpy (s.jobs s.out).bytes

def step (s : State clients printers) : Event clients printers → Option (State clients printers)
  | .set_doc c rand => match s.client c with
    | .ready => some (s.setClient c (.made (set_doc rand)))
    | _ => none
  | .wait_empty c => match s.client c with
    | .made doc =>
      if 0 < s.sem0 then some { s.setClient c (.entered doc) with sem0 := s.sem0 - 1 } else none
    | _ => none
  | .copy_in c => match s.client c with
    | .entered doc => some
      { s.setClient c .copied with
        jobs := Function.update s.jobs s.in_ ((s.jobs s.in_).strcpy doc.val.bytes)
        stored := s.stored ++ [doc.val] }
    | _ => none
  | .update_in c => match s.client c with
    | .copied => some { s.setClient c .updated with in_ := next s.in_ }
    | _ => none
  | .post_full c => match s.client c with
    | .updated => some
      { s.setClient c .ready with sem1 := s.sem1 + 1, insertions := s.insertions + 1 }
    | _ => none
  | .wait_full p => match s.printer p with
    | .idle =>
      if 0 < s.sem1 then some { s.setPrinter p .entered with sem1 := s.sem1 - 1 } else none
    | _ => none
  | .copy_out p => match s.printer p with
    | .entered => some
      { s.setPrinter p (.took (fetched s)) with taken := s.taken ++ [(p, fetched s)] }
    | _ => none
  | .update_out p => match s.printer p with
    | .took doc => some { s.setPrinter p (.updated doc) with out := next s.out }
    | _ => none
  | .post_empty p => match s.printer p with
    | .updated doc => some
      { s.setPrinter p (.holding doc) with sem0 := s.sem0 + 1, takes := s.takes + 1 }
    | _ => none
  | .print p => match s.printer p with
    | .holding doc => some
      { s.setPrinter p .idle with
        printed := Function.update s.printed p (s.printed p ++ [doc]) }
    | _ => none

/-- The shared memory and the semaphores as a client's `main` sets them up,
    with every process at the top of its loop. What the slots hold is left as
    it was. -/
def start (clients printers : Nat) (jobs : Fin MAX_MSG → CharArray MSG_SIZE) :
    State clients printers where
  jobs := jobs
  in_ := ⟨0, by decide⟩
  out := ⟨0, by decide⟩
  sem0 := MAX_MSG
  sem1 := 0
  client _ := .ready
  printer _ := .idle
  stored := []
  taken := []
  printed _ := []
  insertions := 0
  takes := 0

/-- The client has a slot and has not used it. -/
def Client.token : Client → Nat
  | .entered _ => 1
  | _ => 0

/-- The client's document is in the ring, and semaphore 1 does not count it
    yet. -/
def Client.filed : Client → Nat
  | .copied => 1
  | .updated => 1
  | _ => 0

/-- Between the decrement of semaphore 0 and the increment of semaphore 1. -/
def Client.between (pc : Client) : Nat := pc.token + pc.filed

/-- The printer may copy a document and has not. -/
def Printer.due : Printer → Nat
  | .entered => 1
  | _ => 0

/-- The printer has a slot to give back. -/
def Printer.token : Printer → Nat
  | .took _ => 1
  | .updated _ => 1
  | _ => 0

/-- Between the decrement of semaphore 1 and the increment of semaphore 0. -/
def Printer.between (pc : Printer) : Nat := pc.due + pc.token

/-- What the semaphores count: the slots, the documents in them, and the
    insertions that no completed take has undone. -/
structure Accounts (s : State clients printers) : Prop where
  slots : s.sem0 + s.sem1 + total Client.token s.client + total Client.filed s.client +
    total Printer.due s.printer + total Printer.token s.printer = MAX_MSG
  stored : s.stored.length = s.taken.length + s.sem1 + total Client.filed s.client +
    total Printer.due s.printer
  insertions : s.insertions = s.takes + s.sem1 + total Printer.due s.printer +
    total Printer.token s.printer

/-- The client waits at semaphore 0, which is zero. -/
def ClientBlocked (s : State clients printers) (c : Fin clients) : Prop :=
  (∃ doc, s.client c = .made doc) ∧ s.sem0 = 0

/-- The printer waits at semaphore 1, which is zero. -/
def PrinterBlocked (s : State clients printers) (p : Fin printers) : Prop :=
  s.printer p = .idle ∧ s.sem1 = 0

section Steps

variable {s t : State clients printers}

theorem step_set_doc (c : Fin clients) (rand : Nat → Nat) :
    step s (.set_doc c rand) = some t ↔
      s.client c = .ready ∧ t = s.setClient c (.made (set_doc rand)) := by
  cases h : s.client c <;> simp [step, h, eq_comm]

theorem step_wait_empty (c : Fin clients) :
    step s (.wait_empty c) = some t ↔ ∃ doc, s.client c = .made doc ∧ 0 < s.sem0 ∧
      t = { s.setClient c (.entered doc) with sem0 := s.sem0 - 1 } := by
  cases h : s.client c <;> simp [step, h, eq_comm]

theorem step_copy_in (c : Fin clients) :
    step s (.copy_in c) = some t ↔ ∃ doc, s.client c = .entered doc ∧
      t = { s.setClient c .copied with
        jobs := Function.update s.jobs s.in_ ((s.jobs s.in_).strcpy doc.val.bytes)
        stored := s.stored ++ [doc.val] } := by
  cases h : s.client c <;> simp [step, h, eq_comm]

theorem step_update_in (c : Fin clients) :
    step s (.update_in c) = some t ↔
      s.client c = .copied ∧ t = { s.setClient c .updated with in_ := next s.in_ } := by
  cases h : s.client c <;> simp [step, h, eq_comm]

theorem step_post_full (c : Fin clients) :
    step s (.post_full c) = some t ↔ s.client c = .updated ∧
      t = { s.setClient c .ready with
        sem1 := s.sem1 + 1, insertions := s.insertions + 1 } := by
  cases h : s.client c <;> simp [step, h, eq_comm]

theorem step_wait_full (p : Fin printers) :
    step s (.wait_full p) = some t ↔ s.printer p = .idle ∧ 0 < s.sem1 ∧
      t = { s.setPrinter p .entered with sem1 := s.sem1 - 1 } := by
  cases h : s.printer p <;> simp [step, h, eq_comm]

theorem step_copy_out (p : Fin printers) :
    step s (.copy_out p) = some t ↔ s.printer p = .entered ∧
      t = { s.setPrinter p (.took (fetched s)) with taken := s.taken ++ [(p, fetched s)] } := by
  cases h : s.printer p <;> simp [step, h, eq_comm]

theorem step_update_out (p : Fin printers) :
    step s (.update_out p) = some t ↔ ∃ doc, s.printer p = .took doc ∧
      t = { s.setPrinter p (.updated doc) with out := next s.out } := by
  cases h : s.printer p <;> simp [step, h, eq_comm]

theorem step_post_empty (p : Fin printers) :
    step s (.post_empty p) = some t ↔ ∃ doc, s.printer p = .updated doc ∧
      t = { s.setPrinter p (.holding doc) with sem0 := s.sem0 + 1, takes := s.takes + 1 } := by
  cases h : s.printer p <;> simp [step, h, eq_comm]

theorem step_print (p : Fin printers) :
    step s (.print p) = some t ↔ ∃ doc, s.printer p = .holding doc ∧
      t = { s.setPrinter p .idle with
        printed := Function.update s.printed p (s.printed p ++ [doc]) } := by
  cases h : s.printer p <;> simp [step, h, eq_comm]

end Steps

section Accounting

variable {s t : State clients printers} {e : Event clients printers}

/-- A client that moves changes the two counts of clients by its own share. -/
theorem total_setClient (s : State clients printers) (c : Fin clients) (pc : Client) :
    total Client.token (s.setClient c pc).client + (s.client c).token
        = total Client.token s.client + pc.token ∧
      total Client.filed (s.setClient c pc).client + (s.client c).filed
        = total Client.filed s.client + pc.filed :=
  ⟨total_update Client.token s.client c pc, total_update Client.filed s.client c pc⟩

theorem total_setPrinter (s : State clients printers) (p : Fin printers) (pc : Printer) :
    total Printer.due (s.setPrinter p pc).printer + (s.printer p).due
        = total Printer.due s.printer + pc.due ∧
      total Printer.token (s.setPrinter p pc).printer + (s.printer p).token
        = total Printer.token s.printer + pc.token :=
  ⟨total_update Printer.due s.printer p pc, total_update Printer.token s.printer p pc⟩

/-- Every step moves a slot from one place to the next, or none. -/
theorem accounts_step (h : Accounts s) (hstep : step s e = some t) : Accounts t := by
  rcases h with ⟨hslots, hstored, hins⟩
  cases e with
  | set_doc c rand =>
      -- A client that has a document to put in counts for nothing yet.
      rcases (step_set_doc c rand).mp hstep with ⟨hpc, rfl⟩
      rcases total_setClient s c (.made (set_doc rand)) with ⟨htoken, hfiled⟩
      simp only [hpc, Client.token, Client.filed] at htoken hfiled
      simp only [State.setClient] at htoken hfiled
      refine ⟨?_, ?_, ?_⟩ <;> simp only [State.setClient] <;> omega
  | wait_empty c =>
      -- A slot goes from semaphore 0 to the client.
      rcases (step_wait_empty c).mp hstep with ⟨doc, hpc, hsem, rfl⟩
      rcases total_setClient s c (.entered doc) with ⟨htoken, hfiled⟩
      simp only [hpc, Client.token, Client.filed] at htoken hfiled
      simp only [State.setClient] at htoken hfiled
      refine ⟨?_, ?_, ?_⟩ <;> simp only [State.setClient] <;> omega
  | copy_in c =>
      -- The slot is filled, and the client has the document to account for.
      rcases (step_copy_in c).mp hstep with ⟨doc, hpc, rfl⟩
      rcases total_setClient s c .copied with ⟨htoken, hfiled⟩
      simp only [hpc, Client.token, Client.filed] at htoken hfiled
      simp only [State.setClient] at htoken hfiled
      refine ⟨?_, ?_, ?_⟩ <;>
        simp only [State.setClient, List.length_append, List.length_singleton] <;> omega
  | update_in c =>
      rcases (step_update_in c).mp hstep with ⟨hpc, rfl⟩
      rcases total_setClient s c .updated with ⟨htoken, hfiled⟩
      simp only [hpc, Client.token, Client.filed] at htoken hfiled
      simp only [State.setClient] at htoken hfiled
      refine ⟨?_, ?_, ?_⟩ <;> simp only [State.setClient] <;> omega
  | post_full c =>
      -- From now on semaphore 1 accounts for the document.
      rcases (step_post_full c).mp hstep with ⟨hpc, rfl⟩
      rcases total_setClient s c .ready with ⟨htoken, hfiled⟩
      simp only [hpc, Client.token, Client.filed] at htoken hfiled
      simp only [State.setClient] at htoken hfiled
      refine ⟨?_, ?_, ?_⟩ <;> simp only [State.setClient] <;> omega
  | wait_full p =>
      -- A document goes from semaphore 1 to the printer.
      rcases (step_wait_full p).mp hstep with ⟨hpc, hsem, rfl⟩
      rcases total_setPrinter s p .entered with ⟨hdue, htoken⟩
      simp only [hpc, Printer.due, Printer.token] at hdue htoken
      simp only [State.setPrinter] at hdue htoken
      refine ⟨?_, ?_, ?_⟩ <;> simp only [State.setPrinter] <;> omega
  | copy_out p =>
      -- The document is taken, and the printer has a slot to give back.
      rcases (step_copy_out p).mp hstep with ⟨hpc, rfl⟩
      rcases total_setPrinter s p (.took (fetched s)) with ⟨hdue, htoken⟩
      simp only [hpc, Printer.due, Printer.token] at hdue htoken
      simp only [State.setPrinter] at hdue htoken
      refine ⟨?_, ?_, ?_⟩ <;>
        simp only [State.setPrinter, List.length_append, List.length_singleton] <;> omega
  | update_out p =>
      rcases (step_update_out p).mp hstep with ⟨doc, hpc, rfl⟩
      rcases total_setPrinter s p (.updated doc) with ⟨hdue, htoken⟩
      simp only [hpc, Printer.due, Printer.token] at hdue htoken
      simp only [State.setPrinter] at hdue htoken
      refine ⟨?_, ?_, ?_⟩ <;> simp only [State.setPrinter] <;> omega
  | post_empty p =>
      -- The slot is back at semaphore 0.
      rcases (step_post_empty p).mp hstep with ⟨doc, hpc, rfl⟩
      rcases total_setPrinter s p (.holding doc) with ⟨hdue, htoken⟩
      simp only [hpc, Printer.due, Printer.token] at hdue htoken
      simp only [State.setPrinter] at hdue htoken
      refine ⟨?_, ?_, ?_⟩ <;> simp only [State.setPrinter] <;> omega
  | print p =>
      rcases (step_print p).mp hstep with ⟨doc, hpc, rfl⟩
      rcases total_setPrinter s p .idle with ⟨hdue, htoken⟩
      simp only [hpc, Printer.due, Printer.token] at hdue htoken
      simp only [State.setPrinter] at hdue htoken
      refine ⟨?_, ?_, ?_⟩ <;> simp only [State.setPrinter] <;> omega

theorem accounts_start (jobs : Fin MAX_MSG → CharArray MSG_SIZE) :
    Accounts (start clients printers jobs) := by
  have hclients : ∀ f : Client → Nat, f .ready = 0 →
      total f (start clients printers jobs).client = 0 := fun f hf => total_eq_zero f fun _ => hf
  have hprinters : ∀ f : Printer → Nat, f .idle = 0 →
      total f (start clients printers jobs).printer = 0 := fun f hf => total_eq_zero f fun _ => hf
  have htoken := hclients Client.token rfl
  have hfiled := hclients Client.filed rfl
  have hdue := hprinters Printer.due rfl
  have hback := hprinters Printer.token rfl
  exact ⟨by rw [htoken, hfiled, hdue, hback]; rfl, by rw [hfiled, hdue]; rfl,
    by rw [hdue, hback]; rfl⟩

theorem accounts_of_reaches {ok : State clients printers → Event clients printers → Prop}
    (h : Accounts s) (hreach : Reaches step ok s t) : Accounts t :=
  hreach.invariant h fun _ _ _ hv _ hstep => accounts_step hv hstep

end Accounting

/-- However the processes interleave, the two semaphores and the processes
    between them add up to the number of slots. So the completed insertions
    exceed the completed takes by no more than that, and the semaphores are
    never both zero with everybody waiting for them. -/
theorem semaphores_account (clients printers : Nat) (jobs : Fin MAX_MSG → CharArray MSG_SIZE)
    (s : State clients printers) (hreach : Reachable step (start clients printers jobs) s) :
    s.sem0 + s.sem1 + total Client.between s.client + total Printer.between s.printer = MAX_MSG ∧
    (s.takes ≤ s.insertions ∧ s.insertions ≤ s.takes + MAX_MSG) ∧
    ¬ (s.sem0 = 0 ∧ s.sem1 = 0 ∧ (∀ c, ∃ doc, s.client c = .made doc) ∧
      ∀ p, s.printer p = .idle) ∧
    (0 < clients → 0 < printers →
      ¬ ((∀ c, ClientBlocked s c) ∧ ∀ p, PrinterBlocked s p)) := by
  have h := accounts_of_reaches (accounts_start jobs) hreach
  have hslots := h.slots
  have hins := h.insertions
  have hclients : total Client.between s.client
      = total Client.token s.client + total Client.filed s.client := total_add _ _ _
  have hprinters : total Printer.between s.printer
      = total Printer.due s.printer + total Printer.token s.printer := total_add _ _ _
  have hstall : ¬ (s.sem0 = 0 ∧ s.sem1 = 0 ∧ (∀ c, ∃ doc, s.client c = .made doc) ∧
      ∀ p, s.printer p = .idle) := by
    rintro ⟨hsem0, hsem1, hmade, hidle⟩
    -- With nobody between its semaphores the sum is zero.
    have hc : total Client.between s.client = 0 := total_eq_zero _ fun c => by
      rcases hmade c with ⟨doc, hdoc⟩
      rw [hdoc]
      rfl
    have hp : total Printer.between s.printer = 0 := total_eq_zero _ fun p => by
      rw [hidle p]
      rfl
    have hmax : MAX_MSG = 10 := rfl
    omega
  -- If everybody waited, both semaphores would be zero.
  refine ⟨by omega, ⟨by omega, by omega⟩, hstall, fun hc hp hblocked => hstall ?_⟩
  exact ⟨(hblocked.1 ⟨0, hc⟩).2, (hblocked.2 ⟨0, hp⟩).2, fun c => (hblocked.1 c).1,
    fun p => (hblocked.2 p).1⟩

/-- A client's way through its loop. -/
def clientLoop (c : Fin clients) (rand : Nat → Nat) : List (Event clients printers) :=
  [.set_doc c rand, .wait_empty c, .copy_in c, .update_in c, .post_full c]

/-- One client puts in a document, and a printer is about to copy it. -/
theorem semaphores_account_run :
    ∃ s, run step (start 1 1 fun _ => CharArray.zero MSG_SIZE)
        (clientLoop 0 (fun _ => 3) ++ [.wait_full 0]) = some s ∧
      (s.sem0, s.sem1, s.insertions, s.takes) = (9, 0, 1, 0) ∧
      s.sem0 + s.sem1 + total Client.between s.client + total Printer.between s.printer
        = MAX_MSG := by
  have hend : (run step (start 1 1 fun _ => CharArray.zero MSG_SIZE)
      (clientLoop 0 (fun _ => 3) ++ [.wait_full 0])).map
        (fun s => (s.sem0, s.sem1, s.insertions, s.takes)) = some (9, 0, 1, 0) := by decide +kernel
  rcases Option.map_eq_some_iff.mp hend with ⟨s, hrun, hcounts⟩
  exact ⟨s, hrun, hcounts, (semaphores_account 1 1 _ s (reachable_of_run hrun)).1⟩

end SystemV

end OsLabs
