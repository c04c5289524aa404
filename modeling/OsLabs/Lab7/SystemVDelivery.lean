import OsLabs.Core.Log
import OsLabs.Lab7.SystemVSpooler

/-!
# What the System V Spooler Delivers

The semaphores keep clients out of slots that are in use and printers out of
slots that are not, and that is all they do. Up to 10 clients can be inside at
a time, and each reads `in`, copies, and only then updates `in`: two that both
copy before either has updated write into the same slot, and one document is
lost. Printers do the same to `out`, and two of them print one document.

`Undisturbed` says, of the state before a step, that the step is not the second
of two such copies. Runs of such steps deliver every document. The rest of the
argument is `Accounts`: a client about to copy holds a slot that no waiting
document is in, and for a printer about to copy some document waits.

That every document can still be printed is shown by counting, for each
document in the spooler, the steps until it is. Some step always leads to
fewer.

## Main definitions

* `takenBy`: The documents a printer has copied out of the ring.
* `Delivered`: What a spooler is for.
* `Undisturbed`: The copy is not the second into or out of one slot.
* `Placed`: The documents waiting are in the ring, in order.
* `work`: The steps until every document in the spooler is printed.

## Theorems

* `placed_step`: What an undisturbed step preserves.
* `hands_step`: What any step preserves.
* `progress`: There is always a step to less work.
* `ring_delivers`: Undisturbed runs deliver every document.
* `ring_delivers_two`: One client, one printer and one document.
* `second_copy_overwrites`: Two clients that lose a document.
-/

namespace OsLabs

namespace SystemV

open Lab7 (MSG_SIZE Doc set_doc)

/-- The document is in the ring, but `in` does not tell yet. -/
def Client.behind : Client → Nat
  | .copied => 1
  | _ => 0

/-- The document is out of the ring, but `out` does not tell yet. -/
def Printer.ahead : Printer → Nat
  | .took _ => 1
  | _ => 0

/-- What a printer has copied and not yet printed. -/
def Printer.hand : Printer → List (CharArray MSG_SIZE)
  | .took doc => [doc]
  | .updated doc => [doc]
  | .holding doc => [doc]
  | _ => []

/-- The steps until the client's document is counted by semaphore 1, and the
    five from there on. -/
def Client.steps : Client → Nat
  | .copied => 7
  | .updated => 6
  | _ => 0

/-- The steps until the printer's document is printed. -/
def Printer.steps : Printer → Nat
  | .entered => 4
  | .took _ => 3
  | .updated _ => 2
  | .holding _ => 1
  | .idle => 0

variable {clients printers : Nat}

/-- The documents a printer has copied out of the ring, in order. -/
def takenBy (s : State clients printers) (p : Fin printers) : List (CharArray MSG_SIZE) :=
  entriesOf s.taken p

/-- What a spooler is for. Every document copied in has either been copied out
    or still stands in a slot of its own; a printer prints what it copied, once
    and unchanged; and the processes can go on until every document stored so
    far is printed. -/
structure Delivered (s : State clients printers) : Prop where
  kept : ∃ slots : List (Fin MAX_MSG), slots.Nodup ∧
    (s.taken.map Prod.snd ++ slots.map s.jobs).Perm s.stored
  printed : ∀ p, s.printed p ++ (s.printer p).hand = takenBy s p
  completes : ∃ t, Reachable step s t ∧ t.stored = s.stored ∧
    (t.taken.map Prod.snd).Perm t.stored ∧ ∀ p, t.printed p = takenBy t p

/-- The copy is not the second into the slot at `in`, or out of the slot at
    `out`, before that is updated. -/
def Undisturbed (s : State clients printers) : Event clients printers → Prop
  | .copy_in _ => ∀ c, (s.client c).behind = 0
  | .copy_out _ => ∀ p, (s.printer p).ahead = 0
  | _ => True

instance (s : State clients printers) (e : Event clients printers) :
    Decidable (Undisturbed s e) := by
  cases e <;> unfold Undisturbed <;> infer_instance

/-- The positions of the ring, in the order they are used. -/
def ring (k : Nat) : Fin MAX_MSG := circular MAX_MSG (Nat.succ_pos 9) k

theorem next_ring (k : Nat) : next (ring k) = ring (k + 1) :=
  Fin.ext (Nat.mod_add_mod k MAX_MSG 1)

/-- The documents copied in are those copied out and, after them, those in the
    ring. A position lags behind its count by the processes that are between a
    copy and its update. -/
structure Placed (s : State clients printers) : Prop where
  logged : Logged ring s.jobs (s.taken.map Prod.snd) s.stored
  docs : ∀ d ∈ s.stored, d.Full
  in_at : s.in_ = ring (s.stored.length - total Client.behind s.client)
  in_lag : total Client.behind s.client ≤ s.stored.length
  out_at : s.out = ring (s.taken.length - total Printer.ahead s.printer)
  out_lag : total Printer.ahead s.printer ≤ s.taken.length

/-- The steps until every document in the spooler is printed. One that waits
    and is counted needs five. -/
def work (s : State clients printers) : Nat :=
  5 * s.sem1 + total Client.steps s.client + total Printer.steps s.printer

section Preservation

variable {s t : State clients printers} {e : Event clients printers}

/-- A client that moves without a copy or an update concerns nobody. -/
theorem placed_setClient (h : Placed s) (c : Fin clients) (pc : Client)
    (hsame : pc.behind = (s.client c).behind) : Placed (s.setClient c pc) := by
  have hmove := total_update Client.behind s.client c pc
  have hbehind : total Client.behind (s.setClient c pc).client = total Client.behind s.client := by
    rw [hsame] at hmove
    exact Nat.add_right_cancel hmove
  exact
    { logged := h.logged
      docs := h.docs
      in_at := by rw [hbehind]; exact h.in_at
      in_lag := by rw [hbehind]; exact h.in_lag
      out_at := h.out_at
      out_lag := h.out_lag }

/-- Nor does such a printer. -/
theorem placed_setPrinter (h : Placed s) (p : Fin printers) (pc : Printer)
    (hsame : pc.ahead = (s.printer p).ahead) : Placed (s.setPrinter p pc) := by
  have hmove := total_update Printer.ahead s.printer p pc
  have hahead : total Printer.ahead (s.setPrinter p pc).printer
      = total Printer.ahead s.printer := by
    rw [hsame] at hmove
    exact Nat.add_right_cancel hmove
  exact
    { logged := h.logged
      docs := h.docs
      in_at := h.in_at
      in_lag := h.in_lag
      out_at := by rw [hahead]; exact h.out_at
      out_lag := by rw [hahead]; exact h.out_lag }

/-- A copy into the ring appends to what waits there. The slot is free because
    the client's own slot is not with any document. -/
theorem placed_copy_in (h : Placed s) (haccounts : Accounts s) {c : Fin clients} {doc : Doc}
    (hpc : s.client c = .entered doc) (hok : ∀ c, (s.client c).behind = 0) :
    Placed { s.setClient c .copied with
      jobs := Function.update s.jobs s.in_ ((s.jobs s.in_).strcpy doc.val.bytes)
      stored := s.stored ++ [doc.val] } := by
  have hlag : total Client.behind s.client = 0 := total_eq_zero Client.behind hok
  have hmove := total_update Client.behind s.client c .copied
  simp only [hpc, Client.behind, hlag] at hmove
  -- The client has a slot, so fewer than all of them are with documents.
  have hroom : s.stored.length < s.taken.length + MAX_MSG := by
    have htoken := le_total Client.token s.client c
    have hslots := haccounts.slots
    have hstored := haccounts.stored
    simp only [hpc, Client.token] at htoken
    omega
  -- No update of `in` is missing: the copy goes right behind the last document.
  have hin : s.in_ = ring s.stored.length := by rw [h.in_at, hlag, Nat.sub_zero]
  have hwrite := h.logged.write doc.val fun k hk hlt => by
    rw [List.length_map] at hk
    exact circular_ne _ _ _ _ hlt (by omega)
  refine
    { logged := ?_
      docs := ?_
      in_at := ?_
      in_lag := ?_
      out_at := h.out_at
      out_lag := h.out_lag }
  · simp only [State.setClient]
    rw [CharArray.Full.strcpy doc.property, hin]
    exact hwrite
  · intro d hd
    rcases List.mem_append.mp hd with hd | hd
    · exact h.docs d hd
    · rw [List.mem_singleton.mp hd]
      exact doc.property
  · simp only [State.setClient, List.length_append, List.length_singleton]
    refine hin.trans (congrArg ring ?_)
    omega
  · simp only [State.setClient, List.length_append, List.length_singleton]
    omega

/-- An update of `in` catches up with the copy before it. -/
theorem placed_update_in (h : Placed s) {c : Fin clients} (hpc : s.client c = .copied) :
    Placed { s.setClient c .updated with in_ := next s.in_ } := by
  have hlag := h.in_lag
  have hmove := total_update Client.behind s.client c .updated
  simp only [hpc, Client.behind] at hmove
  refine
    { logged := h.logged
      docs := h.docs
      in_at := ?_
      in_lag := ?_
      out_at := h.out_at
      out_lag := h.out_lag }
  · simp only [State.setClient]
    rw [h.in_at, next_ring]
    congr 1
    omega
  · simp only [State.setClient]
    omega

/-- What a printer copies is the oldest document waiting. It fills its slot up
    to the terminator, so the copy is all of it. -/
theorem fetched_eq (h : Placed s) (hok : ∀ p, (s.printer p).ahead = 0)
    (hlt : s.taken.length < s.stored.length) : fetched s = s.jobs (ring s.taken.length) := by
  have hlag : total Printer.ahead s.printer = 0 := total_eq_zero Printer.ahead hok
  have hout : s.out = ring s.taken.length := by rw [h.out_at, hlag, Nat.sub_zero]
  have hmem := h.logged.mem (by rw [List.length_map]; exact hlt)
  rw [List.length_map] at hmem
  rw [fetched, hout]
  exact CharArray.Full.strcpy (h.docs _ hmem) _

/-- A copy out of the ring takes the oldest document waiting there. There is
    one, because the printer may copy one that it has not copied yet. -/
theorem placed_copy_out (h : Placed s) (haccounts : Accounts s) {p : Fin printers}
    (hpc : s.printer p = .entered) (hok : ∀ p, (s.printer p).ahead = 0) :
    Placed { s.setPrinter p (.took (fetched s)) with taken := s.taken ++ [(p, fetched s)] } := by
  have hlag : total Printer.ahead s.printer = 0 := total_eq_zero Printer.ahead hok
  have hmove := total_update Printer.ahead s.printer p (.took (fetched s))
  simp only [hpc, Printer.ahead, hlag] at hmove
  have hlt : s.taken.length < s.stored.length := by
    have hdue := le_total Printer.due s.printer p
    have hstored := haccounts.stored
    simp only [hpc, Printer.due] at hdue
    omega
  have hread := h.logged.read (by rw [List.length_map]; exact hlt)
  rw [List.length_map, ← fetched_eq h hok hlt] at hread
  refine
    { logged := ?_
      docs := h.docs
      in_at := h.in_at
      in_lag := h.in_lag
      out_at := ?_
      out_lag := ?_ }
  · simp only [State.setPrinter, List.map_append, List.map_singleton]
    exact hread
  · simp only [State.setPrinter, List.length_append, List.length_singleton]
    refine h.out_at.trans (congrArg ring ?_)
    omega
  · simp only [State.setPrinter, List.length_append, List.length_singleton]
    omega

/-- An update of `out` catches up with the copy before it. -/
theorem placed_update_out (h : Placed s) {p : Fin printers} {doc : CharArray MSG_SIZE}
    (hpc : s.printer p = .took doc) :
    Placed { s.setPrinter p (.updated doc) with out := next s.out } := by
  have hlag := h.out_lag
  have hmove := total_update Printer.ahead s.printer p (.updated doc)
  simp only [hpc, Printer.ahead] at hmove
  refine
    { logged := h.logged
      docs := h.docs
      in_at := h.in_at
      in_lag := h.in_lag
      out_at := ?_
      out_lag := ?_ }
  · simp only [State.setPrinter]
    rw [h.out_at, next_ring]
    congr 1
    omega
  · simp only [State.setPrinter]
    omega

theorem placed_step (h : Placed s) (haccounts : Accounts s) (hok : Undisturbed s e)
    (hstep : step s e = some t) : Placed t := by
  cases e with
  | set_doc c rand =>
      rcases (step_set_doc c rand).mp hstep with ⟨hpc, rfl⟩
      exact placed_setClient h c _ (by rw [hpc]; rfl)
  | wait_empty c =>
      rcases (step_wait_empty c).mp hstep with ⟨doc, hpc, _, rfl⟩
      exact { placed_setClient h c (.entered doc) (by rw [hpc]; rfl) with }
  | copy_in c =>
      rcases (step_copy_in c).mp hstep with ⟨doc, hpc, rfl⟩
      exact placed_copy_in h haccounts hpc hok
  | update_in c =>
      rcases (step_update_in c).mp hstep with ⟨hpc, rfl⟩
      exact placed_update_in h hpc
  | post_full c =>
      rcases (step_post_full c).mp hstep with ⟨hpc, rfl⟩
      exact { placed_setClient h c .ready (by rw [hpc]; rfl) with }
  | wait_full p =>
      rcases (step_wait_full p).mp hstep with ⟨hpc, _, rfl⟩
      exact { placed_setPrinter h p .entered (by rw [hpc]; rfl) with }
  | copy_out p =>
      rcases (step_copy_out p).mp hstep with ⟨hpc, rfl⟩
      exact placed_copy_out h haccounts hpc hok
  | update_out p =>
      rcases (step_update_out p).mp hstep with ⟨doc, hpc, rfl⟩
      exact placed_update_out h hpc
  | post_empty p =>
      rcases (step_post_empty p).mp hstep with ⟨doc, hpc, rfl⟩
      exact { placed_setPrinter h p (.holding doc) (by rw [hpc]; rfl) with }
  | print p =>
      rcases (step_print p).mp hstep with ⟨doc, hpc, rfl⟩
      exact { placed_setPrinter h p .idle (by rw [hpc]; rfl) with }

/-- A printer prints what it has copied, in order. -/
def Hands (s : State clients printers) : Prop :=
  Carried Printer.hand s.taken s.printed s.printer

theorem hands_step (h : Hands s) (hstep : step s e = some t) : Hands t := by
  cases e with
  | set_doc c rand => rcases (step_set_doc c rand).mp hstep with ⟨_, rfl⟩; exact h
  | wait_empty c => rcases (step_wait_empty c).mp hstep with ⟨_, _, _, rfl⟩; exact h
  | copy_in c => rcases (step_copy_in c).mp hstep with ⟨_, _, rfl⟩; exact h
  | update_in c => rcases (step_update_in c).mp hstep with ⟨_, rfl⟩; exact h
  | post_full c => rcases (step_post_full c).mp hstep with ⟨_, rfl⟩; exact h
  | wait_full p =>
      rcases (step_wait_full p).mp hstep with ⟨hpc, _, rfl⟩
      exact h.stay p .entered (by rw [hpc]; rfl)
  | copy_out p =>
      rcases (step_copy_out p).mp hstep with ⟨hpc, rfl⟩
      exact h.take p (.took (fetched s)) (fetched s) (by rw [hpc]; rfl)
  | update_out p =>
      rcases (step_update_out p).mp hstep with ⟨doc, hpc, rfl⟩
      exact h.stay p (.updated doc) (by rw [hpc]; rfl)
  | post_empty p =>
      rcases (step_post_empty p).mp hstep with ⟨doc, hpc, rfl⟩
      exact h.stay p (.holding doc) (by rw [hpc]; rfl)
  | print p =>
      rcases (step_print p).mp hstep with ⟨doc, hpc, rfl⟩
      exact h.move p .idle _ (by rw [hpc]; exact List.append_nil _)

/-- The three invariants together. -/
structure Inv (s : State clients printers) : Prop where
  accounts : Accounts s
  placed : Placed s
  hands : Hands s

theorem inv_start (jobs : Fin MAX_MSG → CharArray MSG_SIZE) :
    Inv (start clients printers jobs) where
  accounts := accounts_start jobs
  placed :=
    { logged := rfl
      docs := fun _ hd => absurd hd List.not_mem_nil
      in_at := by rw [total_eq_zero Client.behind fun _ => rfl]; rfl
      in_lag := by rw [total_eq_zero Client.behind fun _ => rfl]; exact Nat.zero_le _
      out_at := by rw [total_eq_zero Printer.ahead fun _ => rfl]; rfl
      out_lag := by rw [total_eq_zero Printer.ahead fun _ => rfl]; exact Nat.zero_le _ }
  hands := fun _ => rfl

theorem inv_step (h : Inv s) (hok : Undisturbed s e) (hstep : step s e = some t) : Inv t :=
  ⟨accounts_step h.accounts hstep, placed_step h.placed h.accounts hok hstep,
    hands_step h.hands hstep⟩

end Preservation

section Completion

variable {s t : State clients printers}

theorem work_setClient (s : State clients printers) (c : Fin clients) (pc : Client) :
    work (s.setClient c pc) + (s.client c).steps = work s + pc.steps := by
  have hmove := total_update Client.steps s.client c pc
  simp only [work, State.setClient]
  omega

theorem work_setPrinter (s : State clients printers) (p : Fin printers) (pc : Printer) :
    work (s.setPrinter p pc) + (s.printer p).steps = work s + pc.steps := by
  have hmove := total_update Printer.steps s.printer p pc
  simp only [work, State.setPrinter]
  omega

/-- A printer with a document in hand carries it on. -/
theorem progress_hand {p : Fin printers} {doc : CharArray MSG_SIZE}
    (hpc : s.printer p = .took doc ∨ s.printer p = .updated doc ∨ s.printer p = .holding doc) :
    ∃ e t, Undisturbed s e ∧ step s e = some t ∧ t.stored = s.stored ∧ work t < work s := by
  rcases hpc with hpc | hpc | hpc
  · refine ⟨.update_out p, _, trivial, (step_update_out p).mpr ⟨doc, hpc, rfl⟩, rfl, ?_⟩
    have hwork := work_setPrinter s p (.updated doc)
    simp only [hpc, Printer.steps] at hwork
    change work (s.setPrinter p (.updated doc)) < work s
    omega
  · refine ⟨.post_empty p, _, trivial, (step_post_empty p).mpr ⟨doc, hpc, rfl⟩, rfl, ?_⟩
    have hwork := work_setPrinter s p (.holding doc)
    simp only [hpc, Printer.steps] at hwork
    change work (s.setPrinter p (.holding doc)) < work s
    omega
  · refine ⟨.print p, _, trivial, (step_print p).mpr ⟨doc, hpc, rfl⟩, rfl, ?_⟩
    have hwork := work_setPrinter s p .idle
    simp only [hpc, Printer.steps] at hwork
    change work (s.setPrinter p .idle) < work s
    omega

/-- With no document in any hand a printer that may copy does. -/
theorem progress_entered {p : Fin printers} (hpc : s.printer p = .entered)
    (hahead : ∀ q, (s.printer q).ahead = 0) :
    ∃ e t, Undisturbed s e ∧ step s e = some t ∧ t.stored = s.stored ∧ work t < work s := by
  refine ⟨.copy_out p, _, hahead, (step_copy_out p).mpr ⟨hpc, rfl⟩, rfl, ?_⟩
  have hwork := work_setPrinter s p (.took (fetched s))
  simp only [hpc, Printer.steps] at hwork
  change work (s.setPrinter p (.took (fetched s))) < work s
  omega

/-- A printer at the top of its loop goes for a document that is counted. -/
theorem progress_idle {p : Fin printers} (hpc : s.printer p = .idle) (hsem : 0 < s.sem1) :
    ∃ e t, Undisturbed s e ∧ step s e = some t ∧ t.stored = s.stored ∧ work t < work s := by
  refine ⟨.wait_full p, _, trivial, (step_wait_full p).mpr ⟨hpc, hsem, rfl⟩, rfl, ?_⟩
  have hmove := total_update Printer.steps s.printer p .entered
  simp only [hpc, Printer.steps] at hmove
  simp only [work, State.setPrinter]
  omega

/-- A client that has copied goes on to count its document. -/
theorem progress_client {c : Fin clients} (hpc : 0 < (s.client c).steps) :
    ∃ e t, Undisturbed s e ∧ step s e = some t ∧ t.stored = s.stored ∧ work t < work s := by
  cases hc : s.client c with
  | copied =>
      refine ⟨.update_in c, _, trivial, (step_update_in c).mpr ⟨hc, rfl⟩, rfl, ?_⟩
      have hwork := work_setClient s c .updated
      simp only [hc, Client.steps] at hwork
      change work (s.setClient c .updated) < work s
      omega
  | updated =>
      refine ⟨.post_full c, _, trivial, (step_post_full c).mpr ⟨hc, rfl⟩, rfl, ?_⟩
      have hmove := total_update Client.steps s.client c .ready
      simp only [hc, Client.steps] at hmove
      simp only [work, State.setClient]
      omega
  | _ => rw [hc] at hpc; exact absurd hpc (Nat.lt_irrefl 0)

/-- While there is work, some undisturbed step leads to less. Documents that
    are furthest on go first, so that a copy finds no other under way. -/
theorem progress (hprinters : 0 < printers) (hwork : 0 < work s) :
    ∃ e t, Undisturbed s e ∧ step s e = some t ∧ t.stored = s.stored ∧ work t < work s := by
  by_cases hhand : ∃ p doc, s.printer p = .took doc ∨ s.printer p = .updated doc ∨
      s.printer p = .holding doc
  · rcases hhand with ⟨p, doc, hpc⟩
    exact progress_hand hpc
  by_cases hentered : ∃ p, s.printer p = .entered
  · rcases hentered with ⟨p, hpc⟩
    refine progress_entered hpc fun q => ?_
    cases hq : s.printer q with
    | took doc => exact absurd ⟨q, doc, Or.inl hq⟩ hhand
    | _ => rfl
  -- Every printer is at the top of its loop.
  have hidle : ∀ p, s.printer p = .idle := by
    intro p
    cases hp : s.printer p with
    | idle => rfl
    | entered => exact absurd ⟨p, hp⟩ hentered
    | took doc => exact absurd ⟨p, doc, Or.inl hp⟩ hhand
    | updated doc => exact absurd ⟨p, doc, Or.inr (Or.inl hp)⟩ hhand
    | holding doc => exact absurd ⟨p, doc, Or.inr (Or.inr hp)⟩ hhand
  by_cases hsem : 0 < s.sem1
  · exact progress_idle (hidle ⟨0, hprinters⟩) hsem
  · -- Whatever work there is, it is the clients'.
    have hnone : total Printer.steps s.printer = 0 :=
      total_eq_zero _ fun p => by rw [hidle p]; rfl
    have hsome : 0 < total Client.steps s.client := by
      unfold work at hwork
      omega
    rcases exists_of_total_pos Client.steps hsome with ⟨c, hc⟩
    exact progress_client hc

/-- Undisturbed steps that store nothing lead to where no work is left. -/
theorem completes (hprinters : 0 < printers) (s : State clients printers) :
    ∃ t, Reaches step Undisturbed s t ∧ t.stored = s.stored ∧ work t = 0 := by
  have hnext : ∀ u : State clients printers, u.stored = s.stored → ¬ work u = 0 →
      ∃ e t, Undisturbed u e ∧ step u e = some t ∧ t.stored = s.stored ∧ work t < work u := by
    intro u hsame hwork
    rcases progress hprinters (Nat.pos_of_ne_zero hwork) with ⟨e, t, hok, hstep, hstored, hless⟩
    exact ⟨e, t, hok, hstep, hstored.trans hsame, hless⟩
  exact reaches_goal work hnext (work s) s rfl (Nat.le_refl _)

/-- Where no work is left everything stored has been taken, and everything
    taken has been printed. -/
theorem printed_of_work (h : Inv s) (hwork : work s = 0) :
    s.taken.map Prod.snd = s.stored ∧ ∀ p, s.printed p = takenBy s p := by
  unfold work at hwork
  have hclient : ∀ c, (s.client c).steps = 0 := fun c => by
    have hle := le_total Client.steps s.client c
    omega
  have hprinter : ∀ p, (s.printer p).steps = 0 := fun p => by
    have hle := le_total Printer.steps s.printer p
    omega
  have hidle : ∀ p, s.printer p = .idle := fun p => by
    have hsteps := hprinter p
    cases hp : s.printer p with
    | idle => rfl
    | _ => rw [hp] at hsteps; exact absurd hsteps (Nat.succ_ne_zero _)
  have hfiled : total Client.filed s.client = 0 := total_eq_zero _ fun c => by
    have hsteps := hclient c
    cases hc : s.client c with
    | copied => rw [hc] at hsteps; exact absurd hsteps (Nat.succ_ne_zero _)
    | updated => rw [hc] at hsteps; exact absurd hsteps (Nat.succ_ne_zero _)
    | _ => rfl
  have hdue : total Printer.due s.printer = 0 := total_eq_zero _ fun p => by rw [hidle p]; rfl
  refine ⟨?_, fun p => ?_⟩
  · -- Nothing is in any of the places a document can be in after its copy.
    have hlen := h.accounts.stored
    have hlogged := h.placed.logged
    rw [Logged, List.length_map, show s.stored.length - s.taken.length = 0 by omega, window_zero,
      List.append_nil] at hlogged
    exact hlogged
  · have hhand := h.hands p
    rw [hidle p] at hhand
    exact (List.append_nil _).symm.trans hhand

/-- What waits stands in the slots from the reading position on, and these are
    all different. -/
theorem kept_of_inv (h : Inv s) : ∃ slots : List (Fin MAX_MSG), slots.Nodup ∧
    (s.taken.map Prod.snd ++ slots.map s.jobs).Perm s.stored := by
  have hslots := h.accounts.slots
  have hstored := h.accounts.stored
  have hnodup := circular_nodup MAX_MSG (Nat.succ_pos 9) s.taken.length
    (s.stored.length - s.taken.length) (by omega)
  refine ⟨_, hnodup, ?_⟩
  have hlogged := h.placed.logged
  rw [Logged, List.length_map, window] at hlogged
  rw [List.map_map]
  exact List.Perm.of_eq hlogged

/-- Runs of undisturbed steps deliver every document, and in the order they
    were stored. -/
theorem ring_delivers (clients printers : Nat) (jobs : Fin MAX_MSG → CharArray MSG_SIZE)
    (s : State clients printers) (hprinters : 0 < printers)
    (hreach : Reaches step Undisturbed (start clients printers jobs) s) :
    s.taken.map Prod.snd <+: s.stored ∧ Delivered s := by
  have hinv : ∀ u v : State clients printers, Inv u → Reaches step Undisturbed u v → Inv v :=
    fun _ _ hu hv => hv.invariant hu fun _ _ _ h hok hstep => inv_step h hok hstep
  have h := hinv _ _ (inv_start jobs) hreach
  -- The way on from here is taken with no new document and no interference.
  rcases completes hprinters s with ⟨t, hrun, hstored, hdone⟩
  rcases printed_of_work (hinv _ _ h hrun) hdone with ⟨htaken, hprinted⟩
  refine ⟨⟨_, h.placed.logged⟩, kept_of_inv h, h.hands, t, hrun.mono fun _ _ _ => trivial, hstored,
    ?_, hprinted⟩
  rw [htaken]

end Completion

/-- A printer's way through its loop. -/
def printerLoop (p : Fin printers) : List (Event clients printers) :=
  [.wait_full p, .copy_out p, .update_out p, .post_empty p, .print p]

/-- Two clients store a document each. One printer takes the first, and the
    other one the second and prints it. -/
def twoDocuments (c d : Fin clients) (p q : Fin printers) : List (Event clients printers) :=
  clientLoop c (fun _ => 3) ++ clientLoop d (fun _ => 4) ++
    [.wait_full p, .copy_out p, .update_out p] ++ printerLoop q

/-- The first document is in the hands of its printer, and both will be
    printed. -/
theorem ring_delivers_two :
    ∃ s, run step (start 2 2 fun _ => CharArray.zero MSG_SIZE) (twoDocuments 0 1 0 1) = some s ∧
      s.stored = [(set_doc fun _ => 3).val, (set_doc fun _ => 4).val] ∧ s.printed 0 = [] ∧
      s.printed 1 = [(set_doc fun _ => 4).val] ∧
      ∃ t, Reachable step s t ∧ t.stored = s.stored ∧ (t.taken.map Prod.snd).Perm s.stored ∧
        ∀ p, t.printed p = takenBy t p := by
  have hok : Meets step Undisturbed (start 2 2 fun _ => CharArray.zero MSG_SIZE)
      (twoDocuments 0 1 0 1) := by decide +kernel
  have hend : (run step (start 2 2 fun _ => CharArray.zero MSG_SIZE) (twoDocuments 0 1 0 1)).map
      (fun s => (s.stored, s.printed 0, s.printed 1)) = some
        ([(set_doc fun _ => 3).val, (set_doc fun _ => 4).val], [], [(set_doc fun _ => 4).val]) := by
    decide +kernel
  rcases Option.map_eq_some_iff.mp hend with ⟨s, hrun, hlast⟩
  simp only [Prod.mk.injEq] at hlast
  rcases (ring_delivers 2 2 _ s Nat.two_pos (reaches_of_run hrun hok)).2.completes with
    ⟨t, hreach, hstored, htaken, hprinted⟩
  rw [hstored] at htaken
  exact ⟨s, hrun, hlast.1, hlast.2.1, hlast.2.2, t, hreach, hstored, htaken, hprinted⟩

/-- Two clients copy before either has updated `in`. The document copied first
    is overwritten. -/
def collision {clients printers : Nat} (c d : Fin clients) : List (Event clients printers) :=
  [.set_doc c (fun _ => 0), .wait_empty c, .set_doc d (fun _ => 1), .wait_empty d, .copy_in c,
    .copy_in d]

theorem second_copy_overwrites :
    ¬ ∀ s, Reachable step (start 2 1 fun _ => CharArray.zero MSG_SIZE) s → Delivered s := by
  intro hclaim
  have hend : (run step (start 2 1 fun _ => CharArray.zero MSG_SIZE) (collision 0 1)).map
      (fun s => (s.taken, s.stored, (List.finRange MAX_MSG).map s.jobs))
        = some ([], [(set_doc fun _ => 0).val, (set_doc fun _ => 1).val],
          (set_doc fun _ => 1).val :: List.replicate 9 (CharArray.zero MSG_SIZE)) := by
    decide +kernel
  rcases Option.map_eq_some_iff.mp hend with ⟨s, hrun, hview⟩
  rw [Prod.mk.injEq, Prod.mk.injEq] at hview
  rcases hview with ⟨htaken, hstored, hjobs⟩
  -- The document stored first is in no slot.
  rcases (hclaim s (reachable_of_run hrun)).kept with ⟨slots, _, hperm⟩
  rw [htaken, hstored] at hperm
  have hmem := hperm.symm.subset List.mem_cons_self
  rcases List.mem_map.mp hmem with ⟨i, _, hi⟩
  have hall : (set_doc fun _ => 0).val ∈ (List.finRange MAX_MSG).map s.jobs :=
    List.mem_map.mpr ⟨i, List.mem_finRange i, hi⟩
  rw [hjobs] at hall
  exact absurd hall (by decide +kernel)

end SystemV

end OsLabs
