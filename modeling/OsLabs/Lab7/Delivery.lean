import OsLabs.Core.Log
import OsLabs.Lab7.PosixSpooler

/-!
# What the Spooler Delivers

The spooler has one semaphore where it needs three things kept apart. Two
clients that both copy before either has updated `in` write into the same slot.
Two printers that both copy before either has updated `out` take the same
document, and a printer whose test succeeded long ago may find nothing left to
take. And with all 20 slots in use `in` has come round to `out`, which is what
an empty ring looks like: if no printer is past its test by then, none will
ever pass it again.

`Undisturbed` says, of the state before a step, that the step does none of
these. Runs of such steps deliver every document. The semaphore does keep a
client from overwriting a document that waits, and `Tokens` is why: whatever
the processes do, the free tokens, the clients inside, the documents waiting
and the printers with a document add up to the number of slots.

That every document can still be printed is shown by counting the work left.
As long as there is any, some printer, or the client in its way, can take a
step that leads to less.

## Main definitions

* `Undisturbed`: The step does not run into another process.
* `Tokens`: The count the semaphore keeps.
* `Placed`: The documents waiting are in the ring, in order.
* `Hands`: A printer prints what it has copied.
* `work`: The documents not yet printed.
* `Progress`: Undisturbed steps lead to less work.

## Theorems

* `tokens_step`, `hands_step`: What any step preserves.
* `placed_step`: What an undisturbed step preserves.
* `progress`: There is always a way to less work.
* `delivered_of_reaches`: Undisturbed runs deliver every document.
* `delivered_of_reaches_two`: Two clients, two printers and two documents.
* `two_clients_one_slot`: Two clients that lose a document.
-/

namespace OsLabs

namespace Lab7

/-- The document is in the ring, but `in` does not tell yet. -/
def Client.behind : Client → Nat
  | .copied => 1
  | _ => 0

/-- The client has a token and has not used it. -/
def Client.token : Client → Nat
  | .entered _ => 1
  | _ => 0

/-- The test has succeeded, and nothing is copied yet. -/
def Printer.about : Printer → Nat
  | .found => 1
  | _ => 0

/-- The document is out of the ring, but `out` does not tell yet. -/
def Printer.ahead : Printer → Nat
  | .took _ => 1
  | _ => 0

/-- The printer has a token to give back. -/
def Printer.token : Printer → Nat
  | .took _ => 1
  | .holding _ => 1
  | .done => 1
  | _ => 0

variable {clients printers : Nat}

/-- The step does not run into another process. A client copies only when no
    other has copied and not updated `in`, and does not make a full ring look
    empty unless some printer is past its test. A printer copies only when no
    other has copied and not updated `out`, and there is something to copy. -/
def Undisturbed (s : State clients printers) : Event clients printers → Prop
  | .copy_in _ => ∀ c, (s.client c).behind = 0
  | .update_in _ => s.stored.length = s.taken.length + MAX_MESSAGES →
      ∃ p, 0 < (s.printer p).about
  | .copy_out _ => (∀ p, (s.printer p).ahead = 0) ∧ s.taken.length < s.stored.length
  | _ => True

instance (s : State clients printers) (e : Event clients printers) :
    Decidable (Undisturbed s e) := by
  cases e <;> unfold Undisturbed <;> infer_instance

/-- The tokens are either free, or with a client that may copy, or with a
    document that waits, or with a printer. -/
def Tokens (s : State clients printers) : Prop :=
  s.sem + total Client.token s.client + s.stored.length + total Printer.token s.printer
    = MAX_MESSAGES + s.taken.length

/-- A printer prints what it has copied, in order. -/
def Hands (s : State clients printers) : Prop :=
  ∀ p, s.printed p ++ (s.printer p).hand = takenBy s p

/-- How many documents a printer has in hand. -/
def Printer.load (pc : Printer) : Nat := pc.hand.length

/-- The documents not yet printed: those that wait and those in a printer's
    hand. -/
def work (s : State clients printers) : Nat :=
  s.stored.length - s.taken.length + total Printer.load s.printer

/-- Undisturbed steps that store nothing lead to less work. -/
def Progress (s : State clients printers) : Prop :=
  ∃ t, Reaches step Undisturbed s t ∧ t.stored = s.stored ∧ work t < work s

/-- The positions of the ring, in the order they are used. -/
def ring (k : Nat) : Fin MAX_MESSAGES := circular MAX_MESSAGES (Nat.succ_pos 19) k

/-- The documents copied in are those copied out and, after them, those in the
    ring between the two positions. A position lags behind its count by the
    processes that are between a copy and its update, of which there is at
    most one on either side. -/
structure Placed (s : State clients printers) : Prop where
  fifo : s.taken.map Prod.snd ++
    window ring s.jobs s.taken.length (s.stored.length - s.taken.length) = s.stored
  docs : ∀ d ∈ s.stored, d.Full
  le : s.taken.length ≤ s.stored.length
  in_at : s.in_ = ring (s.stored.length - total Client.behind s.client)
  in_lag : total Client.behind s.client ≤ 1 ∧ total Client.behind s.client ≤ s.stored.length
  out_at : s.out = ring (s.taken.length - total Printer.ahead s.printer)
  out_lag : total Printer.ahead s.printer ≤ 1 ∧ total Printer.ahead s.printer ≤ s.taken.length
  live : s.stored.length = s.taken.length + MAX_MESSAGES →
    0 < total Client.behind s.client ∨ 0 < total Printer.about s.printer

/-- What is stored is logged in the ring. -/
theorem Placed.logged {s : State clients printers} (h : Placed s) :
    Logged ring s.jobs (s.taken.map Prod.snd) s.stored := by
  rw [Logged, List.length_map]
  exact h.fifo

theorem next_ring (k : Nat) : next (ring k) = ring (k + 1) :=
  Fin.ext (Nat.mod_add_mod k MAX_MESSAGES 1)

section Preservation

variable {s t : State clients printers} {e : Event clients printers}

theorem tokens_step (h : Tokens s) (hstep : step s e = some t) : Tokens t := by
  unfold Tokens at h ⊢
  cases e with
  | set_doc c rand =>
      rcases (step_set_doc c rand).mp hstep with ⟨hpc, rfl⟩
      have hmove := total_update Client.token s.client c (.made (set_doc rand))
      simp only [hpc, Client.token] at hmove
      simp only [State.setClient]
      omega
  | sem_wait c =>
      rcases (step_sem_wait c).mp hstep with ⟨doc, hpc, hsem, rfl⟩
      have hmove := total_update Client.token s.client c (.entered doc)
      simp only [hpc, Client.token] at hmove
      simp only [State.setClient]
      omega
  | copy_in c =>
      rcases (step_copy_in c).mp hstep with ⟨doc, hpc, rfl⟩
      have hmove := total_update Client.token s.client c .copied
      simp only [hpc, Client.token] at hmove
      simp only [State.setClient, List.length_append, List.length_singleton]
      omega
  | update_in c =>
      rcases (step_update_in c).mp hstep with ⟨hpc, rfl⟩
      have hmove := total_update Client.token s.client c .ready
      simp only [hpc, Client.token] at hmove
      simp only [State.setClient]
      omega
  | test p =>
      rcases (step_test p).mp hstep with ⟨hpc, rfl⟩
      have hmove := total_update Printer.token s.printer p .found
      simp only [hpc, Printer.token] at hmove
      split_ifs
      · simp only [State.setPrinter]
        omega
      · exact h
  | copy_out p =>
      rcases (step_copy_out p).mp hstep with ⟨hpc, rfl⟩
      have hmove := total_update Printer.token s.printer p
        (.took ((CharArray.zero MSG_SIZE).strncpy (s.jobs s.out).bytes MSG_SIZE))
      simp only [hpc, Printer.token] at hmove
      simp only [State.setPrinter, List.length_append, List.length_singleton]
      omega
  | update_out p =>
      rcases (step_update_out p).mp hstep with ⟨doc, hpc, rfl⟩
      have hmove := total_update Printer.token s.printer p (.holding doc)
      simp only [hpc, Printer.token] at hmove
      simp only [State.setPrinter]
      omega
  | print p =>
      rcases (step_print p).mp hstep with ⟨doc, hpc, rfl⟩
      have hmove := total_update Printer.token s.printer p .done
      simp only [hpc, Printer.token] at hmove
      simp only [State.setPrinter]
      omega
  | sem_post p =>
      rcases (step_sem_post p).mp hstep with ⟨hpc, rfl⟩
      have hmove := total_update Printer.token s.printer p .idle
      simp only [hpc, Printer.token] at hmove
      simp only [State.setPrinter]
      omega

/-- The promise is the one of parties that carry entries of a log. -/
theorem hands_iff : Hands s ↔ Carried Printer.hand s.taken s.printed s.printer := Iff.rfl

theorem hands_step (h : Hands s) (hstep : step s e = some t) : Hands t := by
  rw [hands_iff] at h ⊢
  cases e with
  | set_doc c rand =>
      rcases (step_set_doc c rand).mp hstep with ⟨_, rfl⟩
      exact h
  | sem_wait c =>
      rcases (step_sem_wait c).mp hstep with ⟨_, _, _, rfl⟩
      exact h
  | copy_in c =>
      rcases (step_copy_in c).mp hstep with ⟨_, _, rfl⟩
      exact h
  | update_in c =>
      rcases (step_update_in c).mp hstep with ⟨_, rfl⟩
      exact h
  | test p =>
      rcases (step_test p).mp hstep with ⟨hpc, rfl⟩
      split_ifs
      · exact h.stay p .found (by rw [hpc]; rfl)
      · exact h
  | copy_out p =>
      rcases (step_copy_out p).mp hstep with ⟨hpc, rfl⟩
      exact h.take p (.took _) _ (by rw [hpc]; rfl)
  | update_out p =>
      rcases (step_update_out p).mp hstep with ⟨doc, hpc, rfl⟩
      exact h.stay p (.holding doc) (by rw [hpc]; rfl)
  | print p =>
      rcases (step_print p).mp hstep with ⟨doc, hpc, rfl⟩
      exact h.move p .done _ (by rw [hpc]; exact List.append_nil _)
  | sem_post p =>
      rcases (step_sem_post p).mp hstep with ⟨hpc, rfl⟩
      exact h.stay p .idle (by rw [hpc]; rfl)

/-- A client between two places that are both before its copy concerns nobody. -/
theorem placed_setClient (h : Placed s) (c : Fin clients) (pc : Client)
    (hold : (s.client c).behind = 0) (hnew : pc.behind = 0) : Placed (s.setClient c pc) := by
  have hmove := total_update Client.behind s.client c pc
  have hsame : total Client.behind (s.setClient c pc).client = total Client.behind s.client := by
    rw [hold, hnew] at hmove
    exact hmove
  exact
    { fifo := h.fifo
      docs := h.docs
      le := h.le
      in_at := by rw [hsame]; exact h.in_at
      in_lag := by rw [hsame]; exact h.in_lag
      out_at := h.out_at
      out_lag := h.out_lag
      live := by rw [hsame]; exact h.live }

/-- Nor does a printer between two places that are both before its copy or
    both after its update, if it does not leave the first for the second. -/
theorem placed_setPrinter (h : Placed s) (p : Fin printers) (pc : Printer)
    (hold : (s.printer p).ahead = 0) (hnew : pc.ahead = 0)
    (habout : (s.printer p).about ≤ pc.about) : Placed (s.setPrinter p pc) := by
  have hahead := total_update Printer.ahead s.printer p pc
  have hfound := total_update Printer.about s.printer p pc
  have hsame : total Printer.ahead (s.setPrinter p pc).printer = total Printer.ahead s.printer := by
    rw [hold, hnew] at hahead
    exact hahead
  have hmore : total Printer.about s.printer ≤ total Printer.about (s.setPrinter p pc).printer := by
    simp only [State.setPrinter]
    omega
  exact
    { fifo := h.fifo
      docs := h.docs
      le := h.le
      in_at := h.in_at
      in_lag := h.in_lag
      out_at := by rw [hsame]; exact h.out_at
      out_lag := by rw [hsame]; exact h.out_lag
      live := fun hfull => (h.live hfull).imp id fun hpos => Nat.lt_of_lt_of_le hpos hmore }

/-- A copy into the ring appends to what waits there. The slot is free because
    the client's token is not with any document. -/
theorem placed_copy_in (h : Placed s) (htokens : Tokens s) {c : Fin clients} {doc : Doc}
    (hpc : s.client c = .entered doc) (hok : ∀ c, (s.client c).behind = 0) :
    Placed { s.setClient c .copied with
      jobs := Function.update s.jobs s.in_ ((s.jobs s.in_).strcpy doc.val.bytes)
      stored := s.stored ++ [doc.val] } := by
  have hle := h.le
  have hlag : total Client.behind s.client = 0 := total_eq_zero Client.behind hok
  have hmove := total_update Client.behind s.client c .copied
  simp only [hpc, Client.behind, hlag] at hmove
  -- The client holds a token, so fewer than all of them are with documents.
  have hroom : s.stored.length - s.taken.length < MAX_MESSAGES := by
    have htoken := le_total Client.token s.client c
    simp only [hpc, Client.token] at htoken
    unfold Tokens at htokens
    omega
  -- No update of `in` is missing: the copy goes right behind the last document.
  have hin : s.in_ = ring s.stored.length := by rw [h.in_at, hlag, Nat.sub_zero]
  have hwrite := h.logged.write doc.val fun k hk hlt =>
    circular_ne _ _ _ _ hlt (by rw [List.length_map] at hk; omega)
  rw [Logged, List.length_map] at hwrite
  refine
    { fifo := ?_
      docs := ?_
      le := by simp only [State.setClient, List.length_append]; omega
      in_at := ?_
      in_lag := ?_
      out_at := h.out_at
      out_lag := h.out_lag
      live := fun _ => Or.inl ?_ }
  · simp only [State.setClient]
    rw [CharArray.Full.strcpy doc.property, hin]
    exact hwrite
  · intro d hd
    rcases List.mem_append.mp hd with hd | hd
    · exact h.docs d hd
    · rw [List.mem_singleton.mp hd]
      exact doc.property
  · simp only [State.setClient, List.length_append, List.length_singleton]
    rw [h.in_at]
    congr 1
    omega
  · simp only [State.setClient, List.length_append, List.length_singleton]
    omega
  · simp only [State.setClient]
    omega

/-- An update of `in` catches up with the copy before it. -/
theorem placed_update_in (h : Placed s) {c : Fin clients} (hpc : s.client c = .copied)
    (hok : s.stored.length = s.taken.length + MAX_MESSAGES → ∃ p, 0 < (s.printer p).about) :
    Placed { s.setClient c .ready with in_ := next s.in_ } := by
  have hlag := h.in_lag
  have hmove := total_update Client.behind s.client c .ready
  have hone := le_total Client.behind s.client c
  simp only [hpc, Client.behind] at hmove hone
  refine
    { fifo := h.fifo
      docs := h.docs
      le := h.le
      in_at := ?_
      in_lag := ?_
      out_at := h.out_at
      out_lag := h.out_lag
      live := fun hfull => Or.inr ?_ }
  · simp only [State.setClient]
    rw [h.in_at, next_ring]
    congr 1
    omega
  · simp only [State.setClient]
    omega
  · -- The update may complete a full ring only next to a printer past its test.
    rcases hok hfull with ⟨p, hp⟩
    exact Nat.lt_of_lt_of_le hp (le_total Printer.about s.printer p)

/-- A copy out of the ring takes the oldest document waiting there. -/
theorem placed_copy_out (h : Placed s) (htokens : Tokens s) {p : Fin printers}
    (hok : (∀ p, (s.printer p).ahead = 0) ∧ s.taken.length < s.stored.length) :
    Placed { s.setPrinter p (.took
        ((CharArray.zero MSG_SIZE).strncpy (s.jobs s.out).bytes MSG_SIZE)) with
      taken := s.taken ++
        [(p, (CharArray.zero MSG_SIZE).strncpy (s.jobs s.out).bytes MSG_SIZE)] } := by
  rcases hok with ⟨hahead, hlt⟩
  have hlag : total Printer.ahead s.printer = 0 := total_eq_zero Printer.ahead hahead
  have hmove := total_update Printer.ahead s.printer p (.took
    ((CharArray.zero MSG_SIZE).strncpy (s.jobs s.out).bytes MSG_SIZE))
  rw [hahead p, hlag] at hmove
  simp only [Printer.ahead] at hmove
  have hout : s.out = ring s.taken.length := by rw [h.out_at, hlag, Nat.sub_zero]
  -- Something waits, and the oldest of it is the document at `out`.
  have hwaits : (s.taken.map Prod.snd).length < s.stored.length := by rw [List.length_map]; exact hlt
  have hmem := h.logged.mem hwaits
  have hread := h.logged.read hwaits
  rw [List.length_map, ← hout] at hmem hread
  rw [Logged, List.length_append, List.length_map, List.length_singleton] at hread
  -- A document fills its slot up to the terminator, and the copy is all of it.
  have hdoc : (CharArray.zero MSG_SIZE).strncpy (s.jobs s.out).bytes MSG_SIZE = s.jobs s.out :=
    CharArray.Full.strncpy (h.docs _ hmem) _
  rw [hdoc] at hmove ⊢
  refine
    { fifo := ?_
      docs := h.docs
      le := by simp only [State.setPrinter, List.length_append, List.length_singleton]; omega
      in_at := h.in_at
      in_lag := h.in_lag
      out_at := ?_
      out_lag := ?_
      live := fun hfull => ?_ }
  · simp only [State.setPrinter, List.length_append, List.length_singleton, List.map_append,
      List.map_singleton]
    exact hread
  · simp only [State.setPrinter, List.length_append, List.length_singleton]
    refine hout.trans (congrArg ring ?_)
    omega
  · simp only [State.setPrinter, List.length_append, List.length_singleton]
    omega
  · simp only [State.setPrinter, List.length_append, List.length_singleton] at hfull
    unfold Tokens at htokens
    omega

/-- An update of `out` catches up with the copy before it. -/
theorem placed_update_out (h : Placed s) {p : Fin printers} {doc : CharArray MSG_SIZE}
    (hpc : s.printer p = .took doc) :
    Placed { s.setPrinter p (.holding doc) with out := next s.out } := by
  have hlag := h.out_lag
  have hahead := total_update Printer.ahead s.printer p (.holding doc)
  have hfound := total_update Printer.about s.printer p (.holding doc)
  have hone := le_total Printer.ahead s.printer p
  simp only [hpc, Printer.ahead, Printer.about] at hahead hfound hone
  refine
    { fifo := h.fifo
      docs := h.docs
      le := h.le
      in_at := h.in_at
      in_lag := h.in_lag
      out_at := ?_
      out_lag := ?_
      live := fun hfull => (h.live hfull).imp id fun hpos => ?_ }
  · simp only [State.setPrinter]
    rw [h.out_at, next_ring]
    congr 1
    omega
  · simp only [State.setPrinter]
    omega
  · simp only [State.setPrinter]
    omega

/-- Printing moves no position and no document of the ring. -/
theorem placed_printed (h : Placed s) (printed : Fin printers → List (CharArray MSG_SIZE)) :
    Placed { s with printed := printed } :=
  { h with }

theorem placed_sem (h : Placed s) (sem : Nat) : Placed { s with sem := sem } := { h with }

theorem placed_step (h : Placed s) (htokens : Tokens s) (hok : Undisturbed s e)
    (hstep : step s e = some t) : Placed t := by
  cases e with
  | set_doc c rand =>
      rcases (step_set_doc c rand).mp hstep with ⟨hpc, rfl⟩
      exact placed_setClient h c _ (by rw [hpc]; rfl) rfl
  | sem_wait c =>
      rcases (step_sem_wait c).mp hstep with ⟨doc, hpc, _, rfl⟩
      exact placed_sem (placed_setClient h c _ (by rw [hpc]; rfl) rfl) _
  | copy_in c =>
      rcases (step_copy_in c).mp hstep with ⟨doc, hpc, rfl⟩
      exact placed_copy_in h htokens hpc hok
  | update_in c =>
      rcases (step_update_in c).mp hstep with ⟨hpc, rfl⟩
      exact placed_update_in h hpc hok
  | test p =>
      rcases (step_test p).mp hstep with ⟨hpc, rfl⟩
      split_ifs
      · exact placed_setPrinter h p .found (by rw [hpc]; rfl) rfl (by rw [hpc]; exact Nat.zero_le _)
      · exact h
  | copy_out p =>
      rcases (step_copy_out p).mp hstep with ⟨_, rfl⟩
      exact placed_copy_out h htokens hok
  | update_out p =>
      rcases (step_update_out p).mp hstep with ⟨doc, hpc, rfl⟩
      exact placed_update_out h hpc
  | print p =>
      rcases (step_print p).mp hstep with ⟨doc, hpc, rfl⟩
      exact placed_printed
        (placed_setPrinter h p .done (by rw [hpc]; rfl) rfl (by rw [hpc]; exact Nat.zero_le _)) _
  | sem_post p =>
      rcases (step_sem_post p).mp hstep with ⟨hpc, rfl⟩
      exact placed_sem
        (placed_setPrinter h p .idle (by rw [hpc]; rfl) rfl (by rw [hpc]; exact Nat.zero_le _)) _

end Preservation

section Completion

variable {s t : State clients printers} {e : Event clients printers}

/-- A step on the way to less work. -/
theorem Progress.of_step (h : Progress t) (hstep : step s e = some t) (hok : Undisturbed s e)
    (hstored : t.stored = s.stored) (hwork : work t ≤ work s) : Progress s := by
  rcases h with ⟨u, hreach, hu, hless⟩
  have hfirst : Reaches step Undisturbed s t := Reaches.step s t e Reaches.refl hok hstep
  exact ⟨u, hfirst.trans hreach, hu.trans hstored, Nat.lt_of_lt_of_le hless hwork⟩

theorem progress_holding (p : Fin printers) (doc : CharArray MSG_SIZE)
    (hpc : s.printer p = .holding doc) : Progress s := by
  have hstep := (step_print p).mpr ⟨doc, hpc, rfl⟩
  have hok : Undisturbed s (.print p) := trivial
  refine ⟨_, Reaches.step s _ _ Reaches.refl hok hstep, rfl, ?_⟩
  have hmove := total_update Printer.load s.printer p .done
  simp only [hpc, Printer.load, Printer.hand, List.length_singleton, List.length_nil] at hmove
  simp only [work, State.setPrinter]
  omega

theorem progress_took (p : Fin printers) (doc : CharArray MSG_SIZE)
    (hpc : s.printer p = .took doc) : Progress s := by
  have hstep := (step_update_out p).mpr ⟨doc, hpc, rfl⟩
  have hok : Undisturbed s (.update_out p) := trivial
  refine (progress_holding p doc ?_).of_step hstep hok rfl ?_
  · exact Function.update_self p (Printer.holding doc) s.printer
  · have hmove := total_update Printer.load s.printer p (.holding doc)
    simp only [hpc, Printer.load, Printer.hand, List.length_singleton] at hmove
    simp only [work, State.setPrinter]
    omega

theorem ahead_of_load {pc : Printer} (h : pc.load = 0) : pc.ahead = 0 := by
  cases pc with
  | took doc => exact absurd h Nat.one_ne_zero
  | _ => rfl

theorem progress_found (p : Fin printers) (hpc : s.printer p = .found)
    (hload : ∀ q, (s.printer q).load = 0) (hlt : s.taken.length < s.stored.length) :
    Progress s := by
  have hahead : ∀ q, (s.printer q).ahead = 0 := fun q => ahead_of_load (hload q)
  have hstep := (step_copy_out p).mpr ⟨hpc, rfl⟩
  have hok : Undisturbed s (.copy_out p) := ⟨hahead, hlt⟩
  have htook := Function.update_self p (Printer.took
    ((CharArray.zero MSG_SIZE).strncpy (s.jobs s.out).bytes MSG_SIZE)) s.printer
  refine (progress_took p _ htook).of_step hstep hok rfl ?_
  have hmove := total_update Printer.load s.printer p (.took
    ((CharArray.zero MSG_SIZE).strncpy (s.jobs s.out).bytes MSG_SIZE))
  simp only [hpc, Printer.load, Printer.hand, List.length_singleton, List.length_nil] at hmove
  simp only [work, State.setPrinter, List.length_append, List.length_singleton]
  omega

/-- Nobody has a document in hand after a move to a place where one has none. -/
theorem load_setPrinter (hload : ∀ q, (s.printer q).load = 0) (p : Fin printers) (pc : Printer)
    (hpc : pc.load = 0) : ∀ q, ((s.setPrinter p pc).printer q).load = 0 := by
  intro q
  change (Function.update s.printer p pc q).load = 0
  by_cases hq : q = p
  · rw [hq, Function.update_self]
    exact hpc
  · rw [Function.update_of_ne hq]
    exact hload q

/-- A printer at the top of its loop finds the document the two positions
    show. -/
theorem progress_idle (p : Fin printers) (hpc : s.printer p = .idle)
    (hload : ∀ q, (s.printer q).load = 0) (hlt : s.taken.length < s.stored.length)
    (hne : s.out ≠ s.in_) : Progress s := by
  have hstep := (step_test p).mpr ⟨hpc, rfl⟩
  rw [if_pos hne] at hstep
  have hok : Undisturbed s (.test p) := trivial
  have hfound := Function.update_self p Printer.found s.printer
  have hload' := load_setPrinter hload p .found rfl
  refine Progress.of_step ?_ hstep hok rfl ?_
  · exact progress_found p hfound hload' hlt
  · rw [work, work, total_eq_zero _ hload, total_eq_zero _ hload']
    exact Nat.le_refl _

/-- A printer that has printed gives its token back first. -/
theorem progress_done (p : Fin printers) (hpc : s.printer p = .done)
    (hload : ∀ q, (s.printer q).load = 0) (hlt : s.taken.length < s.stored.length)
    (hne : s.out ≠ s.in_) : Progress s := by
  have hstep := (step_sem_post p).mpr ⟨hpc, rfl⟩
  have hok : Undisturbed s (.sem_post p) := trivial
  have hidle := Function.update_self p Printer.idle s.printer
  have hload' := load_setPrinter hload p .idle rfl
  refine Progress.of_step ?_ hstep hok rfl ?_
  · exact progress_idle p hidle hload' hlt hne
  · rw [work, work, total_eq_zero _ hload, total_eq_zero _ hload']
    exact Nat.le_refl _

/-- When no printer has a document in hand, any of them can go for the one the
    two positions show. -/
theorem progress_visible (p : Fin printers) (hload : ∀ q, (s.printer q).load = 0)
    (hlt : s.taken.length < s.stored.length) (hne : s.out ≠ s.in_) : Progress s := by
  cases hpc : s.printer p with
  | idle => exact progress_idle p hpc hload hlt hne
  | found => exact progress_found p hpc hload hlt
  | took doc => exact progress_took p doc hpc
  | holding doc => exact progress_holding p doc hpc
  | done => exact progress_done p hpc hload hlt hne

/-- A client that has copied updates `in`, which shows its document. -/
theorem progress_copied (c : Fin clients) (hpc : s.client c = .copied) (p : Fin printers)
    (hload : ∀ q, (s.printer q).load = 0) (hlt : s.taken.length < s.stored.length)
    (hroom : s.stored.length < s.taken.length + MAX_MESSAGES) (hne : s.out ≠ next s.in_) :
    Progress s := by
  have hstep := (step_update_in c).mpr ⟨hpc, rfl⟩
  have hok : Undisturbed s (.update_in c) := fun hfull => absurd hfull (by omega)
  refine Progress.of_step ?_ hstep hok rfl (Nat.le_refl _)
  exact progress_visible p hload hlt hne

/-- When no printer is past its test, a waiting document can be hidden only by
    a client that has not made its update of `in` yet. The ring is not full
    then, so that the update shows the document. -/
theorem hidden_by_copied (htokens : Tokens s) (h : Placed s)
    (hahead : total Printer.ahead s.printer = 0) (habout : total Printer.about s.printer = 0)
    (hlt : s.taken.length < s.stored.length) (heq : s.out = s.in_) :
    ∃ c, s.client c = .copied ∧ s.stored.length < s.taken.length + MAX_MESSAGES ∧
      s.out ≠ next s.in_ := by
  have hin := h.in_at
  have hlag := h.in_lag
  have hlive := h.live
  have hout : s.out = ring s.taken.length := by rw [h.out_at, hahead, Nat.sub_zero]
  have hmost : s.stored.length ≤ s.taken.length + MAX_MESSAGES := by
    unfold Tokens at htokens
    omega
  -- The two positions coincide: they are no step or a whole turn apart.
  have hturn : circular MAX_MESSAGES (by decide) (s.taken.length +
      (s.stored.length - total Client.behind s.client - s.taken.length))
        = circular MAX_MESSAGES (by decide) s.taken.length := by
    rw [show s.taken.length + (s.stored.length - total Client.behind s.client
      - s.taken.length) = s.stored.length - total Client.behind s.client by omega]
    exact hin.symm.trans (heq.symm.trans hout)
  rcases (circular_eq_iff _ _ _ _ (by omega)).mp hturn with hnone | hfull
  · -- No step apart: the document that waits is one whose update is missing.
    have hbehind : 0 < total Client.behind s.client := by omega
    rcases exists_of_total_pos Client.behind hbehind with ⟨c, hc⟩
    have hpc : s.client c = .copied := by
      cases hpc : s.client c with
      | copied => rfl
      | _ => rw [hpc] at hc; exact absurd hc (Nat.lt_irrefl 0)
    have hnext : s.out ≠ next s.in_ := by
      rw [← heq, hout, next_ring]
      exact circular_ne _ _ _ _ (Nat.lt_succ_self _) (Nat.add_lt_add_left (by decide) _)
    have hturns : 1 < MAX_MESSAGES := by decide
    exact ⟨c, hpc, by omega, hnext⟩
  · -- A whole turn: the full ring would need a printer past its test.
    rcases hlive (by omega) with hpos | hpos
    · exact absurd hpos (by omega)
    · exact absurd hpos (by omega)

/-- While there is work, there is a way to less. With nothing in any hand a
    document waits; a printer past its test goes for it, any printer does when
    the two positions show it, and a client that hides it can make its
    update. -/
theorem progress (htokens : Tokens s) (h : Placed s) (hprinters : 0 < printers)
    (hwork : 0 < work s) : Progress s := by
  by_cases hload : ∀ q, (s.printer q).load = 0
  · have hlt : s.taken.length < s.stored.length := by
      rw [work, total_eq_zero _ hload] at hwork
      omega
    by_cases hfound : ∃ p, s.printer p = .found
    · rcases hfound with ⟨p, hpc⟩
      exact progress_found p hpc hload hlt
    · have habout : total Printer.about s.printer = 0 := by
        refine total_eq_zero _ fun q => ?_
        cases hpc : s.printer q with
        | found => exact absurd ⟨q, hpc⟩ hfound
        | _ => rfl
      have hahead : total Printer.ahead s.printer = 0 :=
        total_eq_zero _ fun q => ahead_of_load (hload q)
      by_cases heq : s.out = s.in_
      · rcases hidden_by_copied htokens h hahead habout hlt heq with ⟨c, hpc, hshort, hnext⟩
        exact progress_copied c hpc ⟨0, hprinters⟩ hload hlt hshort hnext
      · exact progress_visible ⟨0, hprinters⟩ hload hlt heq
  · -- Some printer has a document in hand and carries it on.
    rcases not_forall.mp hload with ⟨q, hq⟩
    cases hpc : s.printer q with
    | took doc => exact progress_took q doc hpc
    | holding doc => exact progress_holding q doc hpc
    | _ => exact absurd (by rw [hpc]; rfl) hq

/-- The three invariants together. -/
structure Inv (s : State clients printers) : Prop where
  tokens : Tokens s
  placed : Placed s
  hands : Hands s

theorem inv_start : Inv (start clients printers) := by
  have hclients : ∀ f : Client → Nat, f .ready = 0 →
      total f (start clients printers).client = 0 := fun f hf => total_eq_zero f fun _ => hf
  have hprinters : ∀ f : Printer → Nat, f .idle = 0 →
      total f (start clients printers).printer = 0 := fun f hf => total_eq_zero f fun _ => hf
  refine ⟨?_, ?_, fun _ => rfl⟩
  · rw [Tokens, hclients _ rfl, hprinters _ rfl]
    rfl
  · exact
      { fifo := rfl
        docs := fun _ hd => absurd hd List.not_mem_nil
        le := Nat.le_refl 0
        in_at := by rw [hclients _ rfl]; rfl
        in_lag := by rw [hclients _ rfl]; exact ⟨Nat.zero_le 1, Nat.le_refl 0⟩
        out_at := by rw [hprinters _ rfl]; rfl
        out_lag := by rw [hprinters _ rfl]; exact ⟨Nat.zero_le 1, Nat.le_refl 0⟩
        live := fun hfull => absurd (show 0 = 0 + MAX_MESSAGES from hfull) (by decide) }

theorem inv_of_reaches (h : Inv s) (hreach : Reaches step Undisturbed s t) : Inv t :=
  hreach.invariant h fun _ _ _ hv hok hstep =>
    ⟨tokens_step hv.tokens hstep, placed_step hv.placed hv.tokens hok hstep,
      hands_step hv.hands hstep⟩

/-- Undisturbed steps that store nothing lead to where no work is left. -/
theorem completes (hprinters : 0 < printers) (h : Inv s) :
    ∃ t, Reaches step Undisturbed s t ∧ t.stored = s.stored ∧ work t = 0 := by
  have hnext : ∀ u : State clients printers, Inv u ∧ u.stored = s.stored → ¬ work u = 0 →
      ∃ t, Reaches step Undisturbed u t ∧ (Inv t ∧ t.stored = s.stored) ∧ work t < work u := by
    rintro u ⟨hu, hsame⟩ hwork
    rcases progress hu.tokens hu.placed hprinters (Nat.pos_of_ne_zero hwork) with
      ⟨t, hreach, hstored, hless⟩
    exact ⟨t, hreach, ⟨inv_of_reaches hu hreach, hstored.trans hsame⟩, hless⟩
  rcases reaches_goal_of_paths work hnext (work s) s ⟨h, rfl⟩ (Nat.le_refl _) with
    ⟨t, hreach, ⟨_, hstored⟩, hdone⟩
  exact ⟨t, hreach, hstored, hdone⟩

/-- Where no work is left everything stored has been taken, and everything
    taken has been printed. -/
theorem printed_of_work (h : Inv s) (hwork : work s = 0) :
    s.taken.map Prod.snd = s.stored ∧ ∀ p, s.printed p = takenBy s p := by
  have hparts := Nat.eq_zero_of_add_eq_zero hwork
  refine ⟨?_, fun p => ?_⟩
  · have hfifo := h.placed.fifo
    rw [hparts.1, window_zero, List.append_nil] at hfifo
    exact hfifo
  · have hload := le_total Printer.load s.printer p
    rw [hparts.2] at hload
    have hhand := h.hands p
    rw [List.eq_nil_of_length_eq_zero (Nat.le_zero.mp hload), List.append_nil] at hhand
    exact hhand

/-- Runs of undisturbed steps deliver every document, and in the order they
    were stored. -/
theorem delivered_of_reaches (clients printers : Nat) (s : State clients printers)
    (hprinters : 0 < printers) (hreach : Reaches step Undisturbed (start clients printers) s) :
    s.taken.map Prod.snd <+: s.stored ∧ Delivered s := by
  have h := inv_of_reaches inv_start hreach
  have hpre : s.taken.map Prod.snd <+: s.stored := ⟨_, h.placed.fifo⟩
  -- The way on from here is taken with no new document and no interference.
  rcases completes hprinters h with ⟨t, hrun, hstored, hdone⟩
  rcases printed_of_work (inv_of_reaches h hrun) hdone with ⟨htaken, hprinted⟩
  refine ⟨hpre, hpre.sublist.subperm, h.hands, t, hrun.mono fun _ _ _ => trivial, hstored,
    ?_, hprinted⟩
  rw [htaken]

end Completion

/-- A client's way through its loop. -/
def clientLoop (c : Fin clients) (rand : Nat → Nat) : List (Event clients printers) :=
  [.set_doc c rand, .sem_wait c, .copy_in c, .update_in c]

/-- A printer's way through its loop, when it finds a document. -/
def printerLoop (p : Fin printers) : List (Event clients printers) :=
  [.test p, .copy_out p, .update_out p, .print p, .sem_post p]

/-- Two clients store a document each. One printer takes the first, and the
    other one the second and prints it. -/
def twoDocuments (c d : Fin clients) (p q : Fin printers) : List (Event clients printers) :=
  clientLoop c (fun _ => 3) ++ clientLoop d (fun _ => 4) ++
    [.test p, .copy_out p, .update_out p] ++ printerLoop q

/-- The first document is in the hands of its printer, and both will be
    printed. -/
theorem delivered_of_reaches_two :
    ∃ s, run step (start 2 2) (twoDocuments 0 1 0 1) = some s ∧
      s.stored = [(set_doc fun _ => 3).val, (set_doc fun _ => 4).val] ∧ s.printed 0 = [] ∧
      s.printed 1 = [(set_doc fun _ => 4).val] ∧
      ∃ t, Reachable step s t ∧ t.stored = s.stored ∧ (t.taken.map Prod.snd).Perm s.stored ∧
        ∀ p, t.printed p = takenBy t p := by
  have hok : Meets step Undisturbed (start 2 2) (twoDocuments 0 1 0 1) := by decide +kernel
  have hend : (run step (start 2 2) (twoDocuments 0 1 0 1)).map
      (fun s => (s.stored, s.printed 0, s.printed 1)) = some
        ([(set_doc fun _ => 3).val, (set_doc fun _ => 4).val], [], [(set_doc fun _ => 4).val]) := by
    decide +kernel
  rcases Option.map_eq_some_iff.mp hend with ⟨s, hrun, hlast⟩
  simp only [Prod.mk.injEq] at hlast
  rcases (delivered_of_reaches 2 2 s Nat.two_pos (reaches_of_run hrun hok)).2.completes with
    ⟨t, hreach, hstored, htaken, hprinted⟩
  rw [hstored] at htaken
  exact ⟨s, hrun, hlast.1, hlast.2.1, hlast.2.2, t, hreach, hstored, htaken, hprinted⟩

/-- Two clients copy before either has updated `in`. The document copied first
    is overwritten, and the printer's second copy is of a slot nobody has
    written. -/
def collision : List (Event 2 1) :=
  [.set_doc 0 (fun _ => 0), .sem_wait 0, .set_doc 1 (fun _ => 1), .sem_wait 1, .copy_in 0,
    .copy_in 1, .update_in 0, .update_in 1] ++ printerLoop 0 ++ printerLoop 0

theorem two_clients_one_slot :
    ¬ ∀ s, Reachable step (start 2 1) s → Delivered s := by
  intro hclaim
  have hend : (run step (start 2 1) collision).map (fun s => (s.taken.map Prod.snd, s.stored))
      = some ([(set_doc fun _ => 1).val, CharArray.zero MSG_SIZE],
          [(set_doc fun _ => 0).val, (set_doc fun _ => 1).val]) := by decide +kernel
  rcases Option.map_eq_some_iff.mp hend with ⟨s, hrun, hlogs⟩
  -- The second document taken is the empty array, which nobody stored.
  have hstored := (hclaim s (reachable_of_run hrun)).stored
  rw [Prod.mk.injEq] at hlogs
  rw [hlogs.1, hlogs.2] at hstored
  have hmem := hstored.subset (List.mem_cons_of_mem _ List.mem_cons_self)
  exact absurd hmem (by decide +kernel)

end Lab7

end OsLabs
