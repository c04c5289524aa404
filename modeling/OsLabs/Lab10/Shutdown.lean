import OsLabs.Lab10.Server

/-!
# Shutting the TCP Server Down

`server_cleanup` joins the handlers one by one, and holds `clients_mutex` while
it does. A handler ends with a section that takes the same mutex. So a handler
that has not been through that section when `server_cleanup` locks the mutex
never gets through it, and is never joined: each of the two waits for the
other. `server_stop`, which joins the keepalive thread, releases the mutex
first.

Nothing in the code makes the handlers finish before. `server_stop` closes the
descriptors, but a thread that waits in `recv` on one of them goes on waiting
until the other side sends something or closes, and a thread that is not
waiting still has to be scheduled.

What is proved is that this is all that can go wrong: if the handlers that are
recorded in the table are past their section when the mutex is taken, no wait
ever becomes circular. While the mutex is held nobody registers, so no other
handler is recorded, and a handler past its section takes no more steps.

## Main definitions

* `recorded`: The handler whose thread id is in a slot.
* `CircularWait`: The main thread waits for a handler that waits for it.
* `AllPast`: All recorded handlers are past their section.
* `LocksLate`: `server_cleanup` locks the mutex only then.

## Theorems

* `handlerStep_locked`: What a handler can do while the mutex is held.
* `allPast_step`: While it is held, the recorded handlers stay past.
* `no_circularWait`: No run that locks late has a circular wait.
* `no_circularWait_run`: Such a run.
* `cleanup_deadlocks`: A run that locks too early, and deadlocks.
-/

namespace OsLabs

namespace Lab10

open Chat

/-- The handler whose thread id is in the slot, if there is one. -/
def recorded (s : State) (i : Fin MAX_CLIENTS) : Option Handler :=
  if (s.host.server.clients i).thread_id = 0 then none
  else s.threads[(s.host.server.clients i).thread_id - 1]?

/-- `server_cleanup`, with the mutex, waits for a handler that has yet to lock
    the mutex in its cleanup section. -/
def CircularWait (s : State) : Prop :=
  ∃ i h, s.main = .joining i.val ∧ recorded s i = some h ∧ h.pc ≠ .ended

/-- All recorded handlers are past their cleanup section. -/
def AllPast (s : State) : Prop := ∀ i h, recorded s i = some h → h.pc = .ended

instance (s : State) : Decidable (AllPast s) :=
  inferInstanceAs (Decidable (∀ i, ∀ h ∈ recorded s i, h.pc = .ended))

/-- `server_cleanup` locks the mutex only when all recorded handlers are past
    their cleanup section. -/
def LocksLate (s : State) : Event → Prop
  | .main .lock => AllPast s
  | _ => True

instance (s : State) (e : Event) : Decidable (LocksLate s e) := by
  unfold LocksLate
  split <;> infer_instance

section Steps

variable {s s' : State} {t : Nat} {h : Handler}

/-- A handler past its cleanup section takes no steps. -/
theorem handlerStep_not_ended {e : HandlerEvent} (hstep : handlerStep s t h e = some s') :
    h.pc ≠ .ended := by
  intro hpc
  cases e <;> simp [handlerStep, hpc] at hstep

/-- Rewriting a slot without touching its thread. -/
theorem thread_id_setSlot {server : Server} (i : Fin MAX_CLIENTS) (c : ServerClient)
    (hc : c.thread_id = (server.clients i).thread_id) (j : Fin MAX_CLIENTS) :
    ((server.setSlot i c).clients j).thread_id = (server.clients j).thread_id := by
  by_cases hji : j = i
  · rw [hji, setSlot_self]
    exact hc
  · rw [setSlot_other _ _ hji]

/-- Handlers change thread ids only by removing clients. -/
theorem handlerStep_thread_id {e : HandlerEvent} (hstep : handlerStep s t h e = some s')
    (hother : e ≠ .cleanup) (i : Fin MAX_CLIENTS) :
    (s'.host.server.clients i).thread_id = (s.host.server.clients i).thread_id := by
  rcases handlerStep_host hstep with hsame | ⟨j, now, hnoted⟩ | ⟨hcleanup, _⟩
  · rw [hsame]
  · -- Hearing from a client refreshes its slot but keeps the thread id.
    rw [hnoted]
    exact thread_id_setSlot j (refreshed now (s.host.server.clients j)) rfl i
  · exact absurd hcleanup hother

/-- While the mutex is held a handler cannot end, and it does not change the
    thread ids in the table. -/
theorem handlerStep_locked {e : HandlerEvent} (hlocked : s.locked = true)
    (hstep : handlerStep s t h e = some s') :
    h.pc ≠ .ended ∧ ∀ i, (s'.host.server.clients i).thread_id = (s.host.server.clients i).thread_id := by
  refine ⟨handlerStep_not_ended hstep, handlerStep_thread_id hstep ?_⟩
  -- The section cannot be entered at all.
  rintro rfl
  have hfree := (handlerStep_cleanup hstep).2.1
  rw [hlocked] at hfree
  exact absurd hfree (by decide)

/-- The main thread holds the mutex across a step only in `server_cleanup`,
    where it does nothing but clear thread ids. -/
theorem mainStep_locked {e : MainEvent} (hstep : mainStep s e = some s')
    (hlocked : s'.locked = true) :
    s'.threads = s.threads ∧ (e = .lock ∨ s.locked = true) ∧
      ∀ i, (s'.host.server.clients i).thread_id = (s.host.server.clients i).thread_id ∨
        (s'.host.server.clients i).thread_id = 0 := by
  cases e with
  | lock =>
      rcases mainStep_lock hstep with ⟨_, rfl⟩
      exact ⟨rfl, Or.inl rfl, fun _ => Or.inl rfl⟩
  | join =>
      rcases mainStep_join hstep with ⟨n, hmain, rfl | ⟨hn, rfl⟩ | rfl⟩
      · exact ⟨rfl, Or.inr (by simp [State.locked, hmain]), fun _ => Or.inl rfl⟩
      · refine ⟨rfl, Or.inr (by simp [State.locked, hmain]), fun i => ?_⟩
        change ((s.host.server.setSlot ⟨n, hn⟩ _).clients i).thread_id = _ ∨
          ((s.host.server.setSlot ⟨n, hn⟩ _).clients i).thread_id = 0
        by_cases hi : i = ⟨n, hn⟩
        · rw [hi, setSlot_self]
          exact Or.inr rfl
        · rw [setSlot_other _ _ hi]
          exact Or.inl rfl
      · exact absurd hlocked Bool.false_ne_true
  -- Everywhere else the main thread is outside `server_cleanup` afterwards.
  | start created =>
      rcases mainStep_start hstep with ⟨_, rfl⟩
      cases created <;> exact absurd hlocked Bool.false_ne_true
  | test =>
      rcases mainStep_test hstep with ⟨_, rfl⟩
      cases hrun : s.host.server.is_running <;> simp [State.locked, hrun] at hlocked
  | accept r =>
      rcases mainStep_accept hstep with ⟨_, ⟨_, rfl⟩ | ⟨fd, addr, _, _, _, rfl⟩⟩
      · exact absurd hlocked Bool.false_ne_true
      · exact absurd hlocked Bool.false_ne_true
  | configure ok =>
      rcases mainStep_configure hstep with ⟨a, _, rfl⟩
      cases ok <;> exact absurd hlocked Bool.false_ne_true
  | identify r now =>
      rcases mainStep_identify hstep with ⟨a, _, rfl | ⟨id_msg, _, rfl⟩⟩
      · exact absurd hlocked Bool.false_ne_true
      · exact absurd hlocked Bool.false_ne_true
  | register now created =>
      rcases mainStep_register hstep with ⟨a, id_msg, _, rfl⟩
      rcases register_cases a id_msg now created with ⟨err_msg, hs'⟩ | ⟨i, _, _, _, _, hs'⟩
      · rw [hs'] at hlocked
        exact absurd hlocked Bool.false_ne_true
      · rw [hs'] at hlocked
        cases created <;> exact absurd hlocked Bool.false_ne_true
  | refuse ok =>
      rcases mainStep_refuse hstep with ⟨a, err_msg, _, rfl⟩
      exact absurd hlocked Bool.false_ne_true
  | close =>
      rcases mainStep_close hstep with ⟨a, _, rfl⟩
      exact absurd hlocked Bool.false_ne_true
  | welcome now ok =>
      rcases mainStep_welcome hstep with ⟨a, message, _, rfl⟩
      exact absurd hlocked Bool.false_ne_true

/-- The keepalive thread and `server_stop` leave the main thread and the
    handlers where they are, and while the mutex is held the thread ids too. -/
theorem keepaliveStep_locked {e : KeepaliveEvent} (hstep : keepaliveStep s e = some s') :
    s'.main = s.main ∧ s'.threads = s.threads ∧ (s.locked = true → s'.host = s.host) := by
  cases e with
  | test =>
      rw [keepaliveStep_test hstep]
      exact ⟨rfl, rfl, fun _ => rfl⟩
  | sweep input =>
      rcases keepaliveStep_sweep hstep with ⟨hfree, rfl⟩
      exact ⟨rfl, rfl, fun hlocked => absurd hlocked (by simp [hfree])⟩

theorem stopStep_locked {e : StopEvent} (hstep : stopStep s e = some s') :
    s'.main = s.main ∧ s'.threads = s.threads ∧
      (s.locked = true → s'.host.server.clients = s.host.server.clients) := by
  cases e with
  | signal =>
      rcases stopStep_signal hstep with rfl | rfl
      · exact ⟨rfl, rfl, fun _ => rfl⟩
      · exact ⟨rfl, rfl, fun _ => rfl⟩
  | close =>
      rw [stopStep_close hstep]
      exact ⟨rfl, rfl, fun _ => rfl⟩
  | notify now oks =>
      rcases stopStep_notify hstep with ⟨hfree, rfl⟩
      exact ⟨rfl, rfl, fun hlocked => absurd hlocked (by simp [hfree])⟩
  | join =>
      rw [stopStep_join hstep]
      exact ⟨rfl, rfl, fun _ => rfl⟩

/-- Handlers stay past their section as long as thread ids are only cleared
    and the handlers recorded do not move. -/
theorem AllPast.of_threads (hpast : AllPast s) (hthreads : s'.threads = s.threads)
    (hids : ∀ i, (s'.host.server.clients i).thread_id = (s.host.server.clients i).thread_id ∨
      (s'.host.server.clients i).thread_id = 0) : AllPast s' := by
  intro i h hrec
  unfold recorded at hrec
  rcases hids i with hsame | hzero
  · rw [hsame, hthreads] at hrec
    exact hpast i h hrec
  · simp [hzero] at hrec

theorem locked_of_main (hmain : s'.main = s.main) : s'.locked = s.locked := by
  rw [State.locked, State.locked, hmain]

/-- While the mutex is held, the recorded handlers stay past their section. -/
theorem allPast_step {e : Event} (hinv : s.locked = true → AllPast s) (hok : LocksLate s e)
    (hstep : step s e = some s') : s'.locked = true → AllPast s' := by
  intro hlocked
  cases e with
  | handler t e =>
      rcases Option.bind_eq_some_iff.mp hstep with ⟨h, ht, hmove⟩
      rcases handlerStep_frame hmove with ⟨⟨pc, hthreads⟩, hmain, _⟩
      rw [locked_of_main hmain] at hlocked
      rcases handlerStep_locked hlocked hmove with ⟨hpc, hids⟩
      intro i hd hrec
      have hpast := hinv hlocked i
      unfold recorded at hrec hpast
      rw [hids i, hthreads] at hrec
      split_ifs at hrec hpast with hzero
      by_cases heq : (s.host.server.clients i).thread_id - 1 = t
      · -- The handler that moves would be past its section.
        rw [heq] at hpast
        exact absurd (hpast h ht) hpc
      · rw [List.getElem?_set_ne (Ne.symm heq)] at hrec
        exact hpast hd hrec
  | main e =>
      -- The mutex is either taken now, which is done late, or was held before.
      rcases mainStep_locked hstep hlocked with ⟨hthreads, hlock, hids⟩
      have hpast : AllPast s := by
        rcases hlock with rfl | hheld
        · exact hok
        · exact hinv hheld
      exact hpast.of_threads hthreads hids
  | keepalive e =>
      rcases keepaliveStep_locked hstep with ⟨hmain, hthreads, hhost⟩
      rw [locked_of_main hmain] at hlocked
      exact (hinv hlocked).of_threads hthreads fun i => Or.inl (by rw [hhost hlocked])
  | stop e =>
      rcases stopStep_locked hstep with ⟨hmain, hthreads, hclients⟩
      rw [locked_of_main hmain] at hlocked
      exact (hinv hlocked).of_threads hthreads fun i => Or.inl (by rw [hclients hlocked])

end Steps

/-- If `server_cleanup` locks the mutex only when the recorded handlers are past
    their cleanup section, no state it reaches has a circular wait. -/
theorem no_circularWait (port server_socket : Int) (s t : State)
    (hstart : start port server_socket = some s) (hreach : Reaches step LocksLate s t) :
    ¬ CircularWait t := by
  have hfirst : s.locked = true → AllPast s := by
    rcases Option.map_eq_some_iff.mp hstart with ⟨server, _, rfl⟩
    exact fun hlocked => absurd hlocked Bool.false_ne_true
  have hinv : t.locked = true → AllPast t :=
    hreach.invariant hfirst fun v e w hv hok hstep => allPast_step hv hok hstep
  rintro ⟨i, h, hmain, hrec, hpc⟩
  exact hpc (hinv (by simp [State.locked, hmain]) i h hrec)

/-- A client connects, and its handler waits for a message. -/
def connected : List Event :=
  [.main (.start true)] ++ connect 4 "ann" 0 ++ [.main .test] ++ awaits 0

/-- A signal interrupts the main thread in `accept`. -/
def stopping : List Event :=
  [.stop .signal, .stop .close, .stop (.notify 0 fun _ => true), .keepalive .test, .stop .join,
    .main (.accept none), .main .test]

/-- The client closes the connection after it has been told to stop, and its
    handler is joined. -/
def orderly : List Event :=
  connected ++ stopping ++ [.handler 0 (.recv_return .eof 0), .handler 0 .cleanup, .main .lock,
    .main .join]

theorem no_circularWait_run :
    ∃ s t, start 5000 3 = some s ∧ run step s orderly = some t ∧ t.main = .joining 1 ∧
      ¬ CircularWait t := by
  have hend : ((start 5000 3).bind fun s => (run step s orderly).map fun t =>
      (decide (Meets step LocksLate s orderly), t.main)) = some (true, .joining 1) := by
    decide +kernel
  rcases Option.bind_eq_some_iff.mp hend with ⟨s, hstart, hmap⟩
  rcases Option.map_eq_some_iff.mp hmap with ⟨t, hrun, hpair⟩
  rcases Prod.mk.inj hpair with ⟨hok, hmain⟩
  exact ⟨s, t, hstart, hrun, hmain,
    no_circularWait 5000 3 s t hstart (reaches_of_run hrun (of_decide_eq_true hok))⟩

/-- The client sends nothing and stays connected. Its handler is still in
    `recv` when `server_cleanup` takes the mutex and waits for it. -/
theorem cleanup_deadlocks :
    ¬ ∀ s t : State, start 5000 3 = some s → Reachable step s t → ¬ CircularWait t := by
  intro hclaim
  have hend : ((start 5000 3).bind fun s => (run step s (connected ++ stopping ++ [.main .lock]))).map
      (fun t => (t.main, (recorded t ⟨0, by decide⟩).map Handler.pc))
        = some (.joining 0, some (.blocked 4 [] 0)) := by decide +kernel
  rcases Option.map_eq_some_iff.mp hend with ⟨t, hbind, hpair⟩
  rcases Option.bind_eq_some_iff.mp hbind with ⟨s, hstart, hrun⟩
  rcases Prod.mk.inj hpair with ⟨hmain, hmap⟩
  rcases Option.map_eq_some_iff.mp hmap with ⟨h, hrec, hpc⟩
  refine hclaim s t hstart (reachable_of_run hrun) ⟨⟨0, by decide⟩, h, hmain, hrec, ?_⟩
  simp [hpc]

end Lab10

end OsLabs
