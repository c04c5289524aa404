import OsLabs.Lab10.Headcount
import OsLabs.Lab10.Shutdown
import OsLabs.Lab11.Descriptor

/-!
# The Count of Clients over the Life of a Server

The life of the UDP server from `server_init` on: `server_start`, what its two
threads do, `server_stop` in its parts, and `server_cleanup`. They may come in
any order in which their own tests let them, so the system has every run the
program has, and more.

As in the TCP server the flags and the count are changed together everywhere but
in `server_stop`. What follows for both is put together at the end: the count is
the number of active slots in exactly those states that are reached without
`server_stop` having found somebody in the table.

## Main definitions

* `joinSlot`, `joinAll`: The loop of `server_cleanup`.
* `Life`, `LifeEvent`, `lifeStep`: The system.
* `initialised`: Its state after `server_init`.
* `StopsEmpty`: `server_stop` finds nobody in the table.

## Theorems

* `kept_excess`: The four changes to a registry leave the excess alone.
* `excess_lifeStep`: So do all steps but the section of `server_stop`.
* `client_count_iff`: When the count is right, in both servers.
* `client_count_run`: Servers that are empty when they are stopped.
* `stop_forgets_count`: Servers that are not.
-/

namespace OsLabs

namespace Lab11

open Chat

/-- The body of the loop of `server_cleanup`, once the thread is joined. -/
def joinSlot (host : Host) (i : Fin MAX_CLIENTS) : Host :=
  if (host.server.clients i).thread_id = 0 then host
  else
    { host with
      server := host.server.setSlot i { host.server.clients i with thread_id := 0 } }

/-- The section of `server_cleanup`. -/
def joinAll (host : Host) : Host := (List.finRange MAX_CLIENTS).foldl joinSlot host

/-- How far `server_stop` has come, if it runs. What remains after its section
    is to join the keepalive thread. -/
inductive Stop
  | idle
  | closing
  | locking

structure Life where
  state : State
  stop : Stop

inductive LifeEvent
  /-- `server_start` sets `is_running`. -/
  | start
  | serve (e : Event)
  /-- `server_stop` is called. -/
  | stop
  | close
  | notify (now : TimeT) (results : Fin MAX_CLIENTS → Option Nat)
  /-- `server_cleanup`, after its call of `server_stop`. -/
  | cleanup

/-- The life with another host. -/
def Life.setHost (l : Life) (host : Host) : Life := { l with state := { l.state with host := host } }

def lifeStep (l : Life) : LifeEvent → Option Life
  | .start => some (l.setHost
      { l.state.host with server := { l.state.host.server with is_running := true } })
  | .serve e => (step l.state e).map fun s => { l with state := s }
  | .stop => match l.stop with
    | .idle =>
      if l.state.host.server.is_running then some
        { l.setHost
            { l.state.host with server := { l.state.host.server with is_running := false } } with
          stop := .closing }
      else some l
    | _ => none
  | .close => match l.stop with
    | .closing => some { l.setHost l.state.host.closeSocket with stop := .locking }
    | _ => none
  | .notify now results => match l.stop with
    | .locking => some { l.setHost (stopAll now results l.state.host).1 with stop := .idle }
    | _ => none
  | .cleanup =>
    if l.state.host.server.is_running then none
    else some (l.setHost (joinAll l.state.host).closeSocket)

/-- The system after `server_init` has succeeded with the descriptor `fd`. -/
def initialised (port : Int) (fd : Nat) (others : Int → Bool) : Option Life :=
  (server_init port true fd).map fun server =>
    { state :=
        { host := { server := server, open_fds := Function.update others (fd : Int) true }
          pending := none }
      stop := .idle }

/-- The section of `server_stop` finds no client in the table. -/
def StopsEmpty (l : Life) : LifeEvent → Prop
  | .notify _ _ => ∀ i, (l.state.host.server.clients i).is_active = false
  | _ => True

instance (l : Life) : ∀ e, Decidable (StopsEmpty l e)
  | .notify _ _ =>
    inferInstanceAs (Decidable (∀ i, (l.state.host.server.clients i).is_active = false))
  | .start => isTrue trivial
  | .serve _ => isTrue trivial
  | .stop => isTrue trivial
  | .close => isTrue trivial
  | .cleanup => isTrue trivial

section Sections

/-- The four changes leave the excess alone. -/
theorem kept_excess (n : Int) : Kept (fun server => excess server = n) where
  added server client_addr client_id now h _ _ :=
    (excess_fillSlot server server.server_socket client_addr client_id now).trans h
  heard server i client_addr now h _ :=
    (excess_setSlot server i (heard (server.clients i) client_addr now) rfl).trans h
  missed server i h _ _ := (excess_setSlot server i (missed (server.clients i)) rfl).trans h
  removed server i h := (excess_remove_client server i).trans h

theorem excess_closeSocket (host : Host) : excess host.closeSocket.server = excess host.server := by
  unfold Host.closeSocket
  split_ifs
  · rfl
  · rfl

theorem excess_joinAll (host : Host) : excess (joinAll host).server = excess host.server := by
  -- The thread of a slot is neither a flag nor counted.
  have hslot : ∀ (acc : Host) i, excess acc.server = excess host.server →
      excess (joinSlot acc i).server = excess host.server := by
    intro acc i hacc
    unfold joinSlot
    split_ifs
    · exact hacc
    · have hsame := excess_setSlot acc.server i { acc.server.clients i with thread_id := 0 } rfl
      exact hsame.trans hacc
  rw [joinAll]
  exact @foldl_preserves _ _ _ (fun acc : Host => excess acc.server = excess host.server) hslot _ _
    rfl

theorem hangsUp_stopSlot (now : TimeT) (results : Fin MAX_CLIENTS → Option Nat)
    (acc : Host × List Datagram) (i : Fin MAX_CLIENTS) :
    HangsUp i acc.1.server (stopSlot now results acc i).1.server := by
  unfold stopSlot
  by_cases hactive : (acc.1.server.clients i).is_active = true
  · rw [if_pos hactive]
    exact hangsUp_setSlot acc.1.server i (stopped (acc.1.server.clients i)) rfl
  · rw [if_neg hactive]
    exact hangsUp_inactive (Bool.eq_false_iff.mpr hactive)

/-- `server_stop` clears all flags, and does not touch the count. -/
theorem stopAll_clears (now : TimeT) (results : Fin MAX_CLIENTS → Option Nat) (host : Host) :
    (stopAll now results host).1.server.client_count = host.server.client_count ∧
      ∀ i, ((stopAll now results host).1.server.clients i).is_active = false := by
  rw [stopAll]
  exact hangsUp_foldl (fun acc : Host × List Datagram => acc.1.server)
    (hangsUp_stopSlot now results) (host, [])

end Sections

section Steps

variable {l l' : Life}

theorem lifeStep_notify {now : TimeT} {results : Fin MAX_CLIENTS → Option Nat}
    (hstep : lifeStep l (.notify now results) = some l') :
    l' = { l.setHost (stopAll now results l.state.host).1 with stop := .idle } := by
  cases hstop : l.stop <;> simp_all [lifeStep]

/-- All steps but the section of `server_stop` leave the excess alone. -/
theorem excess_lifeStep {e : LifeEvent} (hother : ∀ now results, e ≠ .notify now results)
    (hstep : lifeStep l e = some l') :
    excess l'.state.host.server = excess l.state.host.server := by
  cases e with
  -- Setting `is_running` and the parts of `server_stop` but one leave the table alone.
  | start =>
      rw [lifeStep, Option.some.injEq] at hstep
      rw [← hstep]
      rfl
  | serve e =>
      rcases Option.map_eq_some_iff.mp hstep with ⟨s, hs, rfl⟩
      exact step_preserves (kept_excess _) l.state s e rfl hs
  | stop =>
      cases hstop : l.stop with
      | idle =>
          simp only [lifeStep, hstop] at hstep
          split_ifs at hstep
          · rw [← Option.some.inj hstep]
            rfl
          · rw [← Option.some.inj hstep]
      | _ => simp only [lifeStep, hstop, reduceCtorEq] at hstep
  | close =>
      cases hstop : l.stop with
      | closing =>
          simp only [lifeStep, hstop, Option.some.injEq] at hstep
          rw [← hstep]
          exact excess_closeSocket l.state.host
      | _ => simp only [lifeStep, hstop, reduceCtorEq] at hstep
  | notify now results => exact absurd rfl (hother now results)
  | cleanup =>
      rw [lifeStep] at hstep
      split_ifs at hstep
      have hjoined := excess_joinAll l.state.host
      rw [← Option.some.inj hstep]
      generalize joinAll l.state.host = host at hjoined ⊢
      exact (excess_closeSocket host).trans hjoined

/-- A step keeps the count right exactly when it is not `server_stop` with
    somebody in the table, and never lets it fall short. -/
theorem countAgrees_lifeStep {e : LifeEvent} (h : 0 ≤ excess l.state.host.server)
    (hstep : lifeStep l e = some l') :
    0 ≤ excess l'.state.host.server ∧
      (CountAgrees l'.state.host.server ↔ CountAgrees l.state.host.server ∧ StopsEmpty l e) := by
  by_cases hnotify : ∃ now results, e = .notify now results
  · -- The count becomes the excess, which is what it was if nobody was there.
    rcases hnotify with ⟨now, results, rfl⟩
    have hclears := stopAll_clears now results l.state.host
    rw [lifeStep_notify hstep]
    generalize stopAll now results l.state.host = result at hclears ⊢
    exact countAgrees_stopping hclears.1 hclears.2 h
  · have hsame := excess_lifeStep (fun now results heq => hnotify ⟨now, results, heq⟩) hstep
    have hok : StopsEmpty l e := by
      unfold StopsEmpty
      split
      · exact absurd ⟨_, _, rfl⟩ hnotify
      · trivial
    rw [countAgrees_iff, countAgrees_iff, hsame]
    exact ⟨h, (and_iff_left hok).symm⟩

/-- After a run the count is right exactly when `server_stop`, whenever it ran,
    found nobody in the table. -/
theorem run_countAgrees_iff {port : Int} {fd : Nat} {others : Int → Bool} {events : List LifeEvent}
    (hstart : initialised port fd others = some l) (hrun : run lifeStep l events = some l') :
    CountAgrees l'.state.host.server ↔ Meets lifeStep StopsEmpty l events := by
  have hfirst : excess l.state.host.server = 0 := by
    rcases Option.map_eq_some_iff.mp hstart with ⟨server, hinit, rfl⟩
    exact excess_init hinit
  -- That the count never falls short is what makes the loss irreparable.
  have hiff := @run_iff _ _ lifeStep StopsEmpty (fun v => 0 ≤ excess v.state.host.server)
    (fun v => CountAgrees v.state.host.server)
    (fun _ _ _ hv hstep => (countAgrees_lifeStep hv hstep).1)
    (fun _ _ _ hv hstep => (countAgrees_lifeStep hv hstep).2) events l l' hfirst.ge hrun
  rw [hiff, countAgrees_iff]
  exact and_iff_right hfirst

end Steps

end Lab11

namespace Chat

/-- In both servers, after any run from `server_init` on, the count is the number
    of active slots exactly when no step of the run was the section of
    `server_stop` with somebody in the table. -/
theorem client_count_iff (port server_socket : Int) (fd : Nat) (others : Int → Bool) :
    (∀ s t events, Lab10.start port server_socket = some s → run Lab10.step s events = some t →
      (CountAgrees t.host.server ↔ Meets Lab10.step Lab10.StopsEmpty s events)) ∧
    ∀ l m events, Lab11.initialised port fd others = some l →
      run Lab11.lifeStep l events = some m →
      (CountAgrees m.state.host.server ↔ Meets Lab11.lifeStep Lab11.StopsEmpty l events) :=
  ⟨fun _ _ _ hstart hrun => Lab10.run_countAgrees_iff hstart hrun,
    fun _ _ _ hstart hrun => Lab11.run_countAgrees_iff hstart hrun⟩

/-- The client of the TCP server has left, and its handler has removed it, when
    the server is stopped. -/
def leftBefore : List Lab10.Event :=
  Lab10.connected ++ [.handler 0 (.recv_return .eof 0), .handler 0 .cleanup] ++ Lab10.stopping

/-- The UDP server is stopped and cleaned up. -/
def stoppingLife : List Lab11.LifeEvent :=
  [.stop, .close, .notify 0 fun _ => none, .cleanup]

/-- A client of the UDP server registers and says STOP, and then the server is
    stopped. -/
def leftBeforeLife : List Lab11.LifeEvent :=
  [.start] ++ (Lab11.exchange .MSG_LIST (bytes "ann") Lab11.ann ++
    Lab11.exchange .MSG_STOP (bytes "ann") Lab11.ann).map .serve ++ stoppingLife

theorem client_count_run :
    ∃ s t l m, Lab10.start 5000 3 = some s ∧ run Lab10.step s leftBefore = some t ∧
      Lab11.initialised 5000 3 (fun _ => false) = some l ∧
      run Lab11.lifeStep l leftBeforeLife = some m ∧
      CountAgrees t.host.server ∧ CountAgrees m.state.host.server := by
  have htcp : ((Lab10.start 5000 3).bind fun s => (run Lab10.step s leftBefore).map fun _ =>
      decide (Meets Lab10.step Lab10.StopsEmpty s leftBefore)) = some true := by decide +kernel
  have hudp : ((Lab11.initialised 5000 3 (fun _ => false)).bind fun l =>
      (run Lab11.lifeStep l leftBeforeLife).map fun _ =>
        decide (Meets Lab11.lifeStep Lab11.StopsEmpty l leftBeforeLife)) = some true := by
    decide +kernel
  rcases Option.bind_eq_some_iff.mp htcp with ⟨s, hs, hmap⟩
  rcases Option.map_eq_some_iff.mp hmap with ⟨t, ht, hmeets⟩
  rcases Option.bind_eq_some_iff.mp hudp with ⟨l, hl, hmap'⟩
  rcases Option.map_eq_some_iff.mp hmap' with ⟨m, hm, hmeets'⟩
  rcases client_count_iff 5000 3 3 (fun _ => false) with ⟨hfirst, hsecond⟩
  exact ⟨s, t, l, m, hs, ht, hl, hm,
    (hfirst s t leftBefore hs ht).mpr (of_decide_eq_true hmeets),
    (hsecond l m leftBeforeLife hl hm).mpr (of_decide_eq_true hmeets')⟩

theorem not_countAgrees {server : Server} (hcount : server.client_count = 1)
    (hnone : ∀ i, (server.clients i).is_active = false) : ¬ CountAgrees server := by
  unfold CountAgrees
  rw [hcount, activeCount_eq_zero_iff.mpr hnone]
  decide

/-- A client is registered when the server is stopped. Then the table is empty,
    and one client is counted. -/
theorem stop_forgets_count :
    (∃ s t, Lab10.start 5000 3 = some s ∧
      run Lab10.step s (Lab10.connected ++ Lab10.stopping) = some t ∧
      t.host.server.client_count = 1 ∧ ¬ CountAgrees t.host.server) ∧
    ∃ l m, Lab11.initialised 5000 3 (fun _ => false) = some l ∧
      run Lab11.lifeStep l ([.start] ++
        (Lab11.exchange .MSG_LIST (bytes "ann") Lab11.ann).map .serve ++ stoppingLife) = some m ∧
      m.state.host.server.client_count = 1 ∧ ¬ CountAgrees m.state.host.server := by
  have htcp : ((Lab10.start 5000 3).bind fun s =>
      run Lab10.step s (Lab10.connected ++ Lab10.stopping)).map (fun t =>
        (t.host.server.client_count, decide (∀ i, (t.host.server.clients i).is_active = false)))
        = some (1, true) := by decide +kernel
  have hudp : ((Lab11.initialised 5000 3 (fun _ => false)).bind fun l =>
      run Lab11.lifeStep l ([.start] ++
        (Lab11.exchange .MSG_LIST (bytes "ann") Lab11.ann).map .serve ++ stoppingLife)).map
        (fun m => (m.state.host.server.client_count,
          decide (∀ i, (m.state.host.server.clients i).is_active = false)))
        = some (1, true) := by decide +kernel
  constructor
  · rcases Option.map_eq_some_iff.mp htcp with ⟨t, hbind, hpair⟩
    rcases Option.bind_eq_some_iff.mp hbind with ⟨s, hstart, hrun⟩
    rcases Prod.mk.inj hpair with ⟨hcount, hnone⟩
    exact ⟨s, t, hstart, hrun, hcount, not_countAgrees hcount (of_decide_eq_true hnone)⟩
  · rcases Option.map_eq_some_iff.mp hudp with ⟨m, hbind, hpair⟩
    rcases Option.bind_eq_some_iff.mp hbind with ⟨l, hstart, hrun⟩
    rcases Prod.mk.inj hpair with ⟨hcount, hnone⟩
    exact ⟨l, m, hstart, hrun, hcount, not_countAgrees hcount (of_decide_eq_true hnone)⟩

end Chat

end OsLabs
