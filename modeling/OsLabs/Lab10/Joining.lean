import OsLabs.Lab10.Registration
import OsLabs.Lab10.Shutdown

/-!
# Who Joins the Handlers

`server_cleanup` joins the threads whose ids it finds in the slots. An id is
written into a slot when the thread is created, and it is lost when the slot
is cleared, which `remove_client` does, or filled in again. `remove_client` is
called by the handler itself at its end, by the keepalive thread for a client
that is silent, and by the main thread for a client it has no thread for. So a
thread whose client leaves while the server runs is joined by nobody, and one
whose client is taken out by the keepalive thread may still be running when
`server_cleanup` returns.

Nothing else is lost. A thread id stands in one slot at most, and each thread is
joined once at most; and all of them are joined exactly if no step of the run
takes an id from its slot but the loop of `server_cleanup`.

## Main definitions

* `joinedBy`, `Roll`, `rollStep`: The threads `server_cleanup` has joined.
* `AllJoined`: Each handler has been joined once.
* `KeepsRecords`: The step takes no thread id from its slot, except by joining.
* `Effect`: What a step does to the thread ids.
* `Rolled`: The invariant.
* `NoneLost`: Each handler has been joined or stands in a slot.

## Theorems

* `sweep_ids_iff`: A sweep keeps the ids if it spares their clients.
* `effect_step`: Every step has one of the three effects.
* `rolled_of_cleared`, `rolled_of_filled`, `rolled_of_joined`, `rolled_step`: Ids
  stay apart.
* `noneLost_cleared`, `noneLost_filled`, `noneLost_joined`, `noneLost_step`: No
  thread is lost exactly when no id is.
* `joined_once_iff`: All are joined exactly in the runs that keep the ids.
* `joined_once_run`: Such a run.
* `handler_outlives`: A run at the end of which a handler is still in `recv`.
-/

namespace OsLabs

namespace Lab10

open Chat

def State.thread_id (s : State) (i : Fin MAX_CLIENTS) : Nat := (s.host.server.clients i).thread_id

/-- The threads a step joins. -/
def joinedBy (s : State) : Event → List Nat
  | .main .join =>
    match s.main with
    | .joining n =>
      if h : n < MAX_CLIENTS then
        if s.thread_id ⟨n, h⟩ = 0 then [] else [s.thread_id ⟨n, h⟩]
      else []
    | _ => []
  | _ => []

/-- The server, and the threads it has joined. -/
structure Roll where
  state : State
  joined : List Nat

def rollStep (r : Roll) (e : Event) : Option Roll :=
  (step r.state e).map fun s => { state := s, joined := r.joined ++ joinedBy r.state e }

/-- Every handler ever created has been joined exactly once. -/
def AllJoined (r : Roll) : Prop := ∀ t < r.state.threads.length, r.joined.count (t + 1) = 1

/-- A sweep leaves the client of a slot alone, if a thread is recorded there: it
    is not silent, or it has missed too few sweeps to be removed and the message
    to it can be sent. -/
def Spared (input : SweepInput) (server : Server) (i : Fin MAX_CLIENTS) : Prop :=
  (server.clients i).is_active = true → silent input.now (server.clients i) = true →
    (server.clients i).thread_id ≠ 0 →
      (missed (server.clients i)).inactive_count < MAX_INACTIVE_COUNT ∧ input.oks i = true

/-- The step takes no thread id from its slot. A handler does in its cleanup, if
    the descriptor it reads there is that of a slot with a thread; a sweep does
    for a client it removes; and a registration does if a thread is still
    recorded in the slot it fills in. -/
def KeepsRecords (s : State) : Event → Prop
  | .handler t .cleanup =>
    ∀ h ∈ s.threads[t]?,
      ∀ i ∈ find_client_by_socket s.host.server (s.host.server.clients h.client).socket_fd,
        s.thread_id i = 0
  | .keepalive (.sweep input) => ∀ i, Spared input s.host.server i
  | .main (.register _ _) =>
    match s.main with
    | .registering a id_msg =>
      validate_client_id id_msg.sender_id.bytes = true →
        find_client_by_id s.host.server id_msg.sender_id.bytes = none → 0 ≤ a.client_socket →
          ∀ i ∈ freeSlot s.host.server, s.thread_id i = 0
    | _ => True
  | _ => True

instance (input : SweepInput) (server : Server) (i : Fin MAX_CLIENTS) :
    Decidable (Spared input server i) :=
  inferInstanceAs (Decidable (_ → _ → _ → _ ∧ _))

/-- The client being registered, and its first message. -/
def Main.entrant : Main → Option (Accepted × Message)
  | .registering a id_msg => some (a, id_msg)
  | _ => none

theorem keepsRecords_register (s : State) (now : TimeT) (created : Bool) :
    (∀ p ∈ s.main.entrant, validate_client_id p.2.sender_id.bytes = true →
      find_client_by_id s.host.server p.2.sender_id.bytes = none → 0 ≤ p.1.client_socket →
        ∀ i ∈ freeSlot s.host.server, s.thread_id i = 0) ↔
      KeepsRecords s (.main (.register now created)) := by
  unfold KeepsRecords
  cases s.main <;> simp [Main.entrant]

instance (s : State) : ∀ e, Decidable (KeepsRecords s e)
  | .handler t .cleanup =>
    inferInstanceAs (Decidable (∀ h ∈ s.threads[t]?,
      ∀ i ∈ find_client_by_socket s.host.server (s.host.server.clients h.client).socket_fd,
        s.thread_id i = 0))
  | .keepalive (.sweep input) => inferInstanceAs (Decidable (∀ i, Spared input s.host.server i))
  | .main (.register now created) => decidable_of_iff _ (keepsRecords_register s now created)
  | .handler _ .test => isTrue trivial
  | .handler _ .call => isTrue trivial
  | .handler _ .recv => isTrue trivial
  | .handler _ (.recv_return _ _) => isTrue trivial
  | .handler _ (.note _) => isTrue trivial
  | .handler _ .switch => isTrue trivial
  | .handler _ (.handle _ _ _) => isTrue trivial
  | .handler _ (.reply _) => isTrue trivial
  | .main (.start _) => isTrue trivial
  | .main .test => isTrue trivial
  | .main (.accept _) => isTrue trivial
  | .main (.configure _) => isTrue trivial
  | .main (.identify _ _) => isTrue trivial
  | .main (.refuse _) => isTrue trivial
  | .main .close => isTrue trivial
  | .main (.welcome _ _) => isTrue trivial
  | .main .lock => isTrue trivial
  | .main .join => isTrue trivial
  | .keepalive .test => isTrue trivial
  | .stop _ => isTrue trivial

instance (r : Roll) : Decidable (AllJoined r) :=
  inferInstanceAs (Decidable (∀ t < r.state.threads.length, r.joined.count (t + 1) = 1))

/-- The slots the loop of `server_cleanup` is past. -/
def Main.passed : Main → Nat
  | .joining n => n
  | .returned => MAX_CLIENTS
  | _ => 0

/-- What a step does to the thread ids: it may clear some, or fill in a slot, or
    join the thread of a slot. -/
inductive Effect (s : State) (e : Event) (s' : State) : Prop
  | clears (hids : ∀ i, s'.thread_id i = s.thread_id i ∨ s'.thread_id i = 0)
      (hlen : s'.threads.length = s.threads.length) (hjoins : joinedBy s e = [])
      (hpassed : ∀ i : Fin MAX_CLIENTS, i.val < s'.main.passed →
        i.val < s.main.passed ∨ s'.thread_id i = 0)
      (hiff : KeepsRecords s e ↔ ∀ i, s'.thread_id i = s.thread_id i)
  | fills (i : Fin MAX_CLIENTS) (hother : ∀ j, j ≠ i → s'.thread_id j = s.thread_id j)
      (hid : s'.thread_id i = 0 ∧ s'.threads.length = s.threads.length ∨
        s'.thread_id i = s.threads.length + 1 ∧ s'.threads.length = s.threads.length + 1)
      (hjoins : joinedBy s e = []) (hpassed : s'.main.passed = 0)
      (hiff : KeepsRecords s e ↔ s.thread_id i = 0)
  | joins (i : Fin MAX_CLIENTS) (hold : s.thread_id i ≠ 0) (hnew : s'.thread_id i = 0)
      (hother : ∀ j, j ≠ i → s'.thread_id j = s.thread_id j)
      (hlen : s'.threads.length = s.threads.length) (hjoins : joinedBy s e = [s.thread_id i])
      (hpassed : ∀ j : Fin MAX_CLIENTS, j.val < s'.main.passed →
        j.val < s.main.passed ∨ s'.thread_id j = 0)
      (hok : KeepsRecords s e)

section Sections

variable {host : Host}

/-- On an open descriptor sending succeeds as the operating system has it. -/
theorem send_isSome {fd : Int} (hpos : 0 ≤ fd) (hopen : (host.conns fd).isSome = true)
    (message : Message) (cause : Option (Conn × Message)) (ok : Bool) :
    (host.send fd message cause ok).isSome = ok := by
  rcases Option.isSome_iff_exists.mp hopen with ⟨c, hc⟩
  unfold Host.send
  rw [if_neg (by omega), hc]
  cases ok <;> rfl

theorem remove_client_thread {server : Server} {i : Fin MAX_CLIENTS}
    (hactive : (server.clients i).is_active = true) :
    ((Chat.remove_client server i).1.clients i).thread_id = 0 := by
  rw [Chat.remove_client, if_pos hactive]
  exact congrArg ServerClient.thread_id (setSlot_self server i _)

/-- The table with one more missed sweep for the client of a slot. -/
def counted (host : Host) (i : Fin MAX_CLIENTS) : Host :=
  { host with server := host.server.setSlot i (missed (host.server.clients i)) }

/-- What a visit of the sweep does to the table, where all active slots have
    open descriptors. -/
theorem sweepSlot_host (input : SweepInput) (acc : Host × List Delivery) (i : Fin MAX_CLIENTS)
    (h : Attached acc.1) :
    (sweepSlot input acc i).1 =
      if (acc.1.server.clients i).is_active = true ∧
          silent input.now (acc.1.server.clients i) = true then
        if (missed (acc.1.server.clients i)).inactive_count < MAX_INACTIVE_COUNT ∧
            input.oks i = true then counted acc.1 i
        else (counted acc.1 i).remove_client i
      else acc.1 := by
  unfold sweepSlot
  by_cases hactive : (acc.1.server.clients i).is_active = true
  · by_cases hsilent : silent input.now (acc.1.server.clients i) = true
    · rw [if_neg (by rw [hactive]; decide), if_pos hsilent]
      refine Eq.trans ?_ (if_pos ⟨hactive, hsilent⟩).symm
      by_cases hcount : (missed (acc.1.server.clients i)).inactive_count ≥ MAX_INACTIVE_COUNT
      · rw [if_pos hcount, if_neg fun hspared => absurd hspared.1 (by omega)]
        rfl
      · rw [if_neg hcount]
        have hopen := h.connected i hactive
        have hsend := @send_isSome (counted acc.1 i) _ hopen.1 hopen.2
          (create_message .MSG_ALIVE serverName (acc.1.server.clients i).client_id.bytes []
            input.stamp) none (input.oks i)
        -- The client stays if the message can be sent, and goes otherwise.
        cases hresult : (counted acc.1 i).send (acc.1.server.clients i).socket_fd
            (create_message .MSG_ALIVE serverName (acc.1.server.clients i).client_id.bytes []
              input.stamp) none (input.oks i) with
        | none =>
            rw [hresult] at hsend
            rw [if_neg fun hspared => absurd (hsend.trans hspared.2) Bool.false_ne_true]
            unfold counted at hresult ⊢
            simp only [hresult]
        | some d =>
            rw [hresult] at hsend
            rw [if_pos ⟨by omega, hsend.symm⟩]
            unfold counted at hresult ⊢
            simp only [hresult]
    · rw [if_neg (by rw [hactive]; decide), if_neg hsilent,
        if_neg fun hboth => hsilent hboth.2]
  · rw [if_pos (by rw [Bool.eq_false_iff.mpr hactive]; rfl), if_neg fun hboth => hactive hboth.1]

/-- A visit leaves the other slots as they are. -/
theorem sweepSlot_other (input : SweepInput) (acc : Host × List Delivery) {i j : Fin MAX_CLIENTS}
    (hj : j ≠ i) : (sweepSlot input acc i).1.server.clients j = acc.1.server.clients j := by
  rcases sweepSlot_cases input acc i with hsame | ⟨c, counted, rfl, -, -, rfl, hdone⟩
  · rw [hsame]
  · have hcounted := setSlot_other acc.1.server (missed (acc.1.server.clients i)) hj
    rcases hdone with hremoved | ⟨d, -, -, hreminded⟩
    · rw [hremoved]
      exact (remove_client_other _ hj).trans hcounted
    · rw [hreminded]
      exact hcounted

/-- A visit takes the thread id from its slot if it does not spare the
    client. -/
theorem sweepSlot_ids (input : SweepInput) (acc : Host × List Delivery) (i : Fin MAX_CLIENTS)
    (h : Attached acc.1) :
    (((sweepSlot input acc i).1.server.clients i).thread_id
        = (acc.1.server.clients i).thread_id ∨
      ((sweepSlot input acc i).1.server.clients i).thread_id = 0) ∧
    (((sweepSlot input acc i).1.server.clients i).thread_id
      = (acc.1.server.clients i).thread_id ↔ Spared input acc.1.server i) := by
  have hself : (counted acc.1 i).server.clients i = missed (acc.1.server.clients i) :=
    setSlot_self ..
  rw [sweepSlot_host input acc i h]
  unfold Spared
  split_ifs with hboth hspared
  · have hsame : ((counted acc.1 i).server.clients i).thread_id
        = (acc.1.server.clients i).thread_id := by
      rw [hself]
      rfl
    exact ⟨Or.inl hsame, iff_of_true hsame fun _ _ _ => hspared⟩
  · have hzero : (((counted acc.1 i).remove_client i).server.clients i).thread_id = 0 :=
      remove_client_thread (by rw [hself]; exact hboth.1)
    refine ⟨Or.inr hzero, ?_⟩
    rw [hzero]
    constructor
    · exact fun hnone _ _ hne => absurd hnone.symm hne
    · intro himp
      by_contra hne
      exact hspared (himp hboth.1 hboth.2 (Ne.symm hne))
  · exact ⟨Or.inl rfl, iff_of_true rfl fun hactive hsilent _ =>
      absurd ⟨hactive, hsilent⟩ hboth⟩

/-- A sweep takes ids from slots and gives none, and it keeps them all exactly
    when it spares every client. -/
theorem sweep_ids_iff (input : SweepInput) (h : Attached host) :
    (∀ i, ((sweep input host).1.server.clients i).thread_id = (host.server.clients i).thread_id ∨
      ((sweep input host).1.server.clients i).thread_id = 0) ∧
    ((∀ i, Spared input host.server i) ↔
      ∀ i, ((sweep input host).1.server.clients i).thread_id
        = (host.server.clients i).thread_id) := by
  -- Each slot is visited once and unchanged until then, so that whether its
  -- client is spared can be read before the sweep.
  let Inv (acc : Host × List Delivery) : Prop := Attached acc.1 ∧
    ∀ j, (acc.1.server.clients j).thread_id = (host.server.clients j).thread_id ∨
      (acc.1.server.clients j).thread_id = 0
  have hinv : ∀ acc i, Inv acc → Inv (sweepSlot input acc i) := by
    intro acc i hacc
    refine ⟨hacc.1.shrinks (shrinks_sweepSlot input acc i hacc.1), fun j => ?_⟩
    by_cases hji : j = i
    · rw [hji]
      rcases (sweepSlot_ids input acc i hacc.1).1 with hsame | hzero
      · rw [hsame]
        exact hacc.2 i
      · exact Or.inr hzero
    · rw [sweepSlot_other input acc hji]
      exact hacc.2 j
  have hvisit : ∀ acc i, Inv acc →
      ((∀ j, ((sweepSlot input acc i).1.server.clients j).thread_id
          = (host.server.clients j).thread_id) ↔
        (∀ j, (acc.1.server.clients j).thread_id = (host.server.clients j).thread_id) ∧
          Spared input acc.1.server i) := by
    intro acc i hacc
    rcases sweepSlot_ids input acc i hacc.1 with ⟨hself, hiff⟩
    constructor
    · intro hall
      -- An id that is gone before the visit is gone after it.
      have hbefore : (acc.1.server.clients i).thread_id = (host.server.clients i).thread_id := by
        rcases hacc.2 i with hsame | hzero
        · exact hsame
        · rw [hzero, ← hall i]
          rcases hself with hsame | hzero'
          · rw [hsame, hzero]
          · exact hzero'.symm
      refine ⟨fun j => ?_, hiff.mp ((hall i).trans hbefore.symm)⟩
      by_cases hji : j = i
      · rw [hji]
        exact hbefore
      · rw [← sweepSlot_other input acc hji]
        exact hall j
    · rintro ⟨hall, hspared⟩ j
      by_cases hji : j = i
      · rw [hji, hiff.mpr hspared]
        exact hall i
      · rw [sweepSlot_other input acc hji]
        exact hall j
  have hframe : ∀ acc i j, i ≠ j →
      (Spared input (sweepSlot input acc i).1.server j ↔ Spared input acc.1.server j) := by
    intro acc i j hij
    unfold Spared
    rw [sweepSlot_other input acc hij.symm]
  have hfirst : Inv (host, []) := ⟨h, fun _ => Or.inl rfl⟩
  have hall := @foldl_iff _ _ (sweepSlot input) Inv
    (fun acc => ∀ j, (acc.1.server.clients j).thread_id = (host.server.clients j).thread_id)
    (fun acc i => Spared input acc.1.server i) hinv hvisit hframe _
    (List.nodup_finRange MAX_CLIENTS) _ hfirst
  have hlast := foldl_preserves hinv (List.finRange MAX_CLIENTS) _ hfirst
  rw [sweep]
  refine ⟨hlast.2, Iff.trans ?_ hall.symm⟩
  exact ⟨fun hspared => ⟨fun _ => rfl, fun i _ => hspared i⟩,
    fun hspared i => hspared.2 i (List.mem_finRange i)⟩

end Sections

section Effects

variable {s s' : State}

/-- Where a step leaves the slots, or rewrites one and keeps its thread. -/
theorem effect_same {e : Event} (hids : ∀ i, s'.thread_id i = s.thread_id i)
    (hlen : s'.threads.length = s.threads.length) (hjoins : joinedBy s e = [])
    (hpassed : s'.main.passed = s.main.passed ∨ s'.main.passed = 0) (hok : KeepsRecords s e) :
    Effect s e s' :=
  .clears (fun i => Or.inl (hids i)) hlen hjoins
    (fun i hi => by rcases hpassed with hsame | hzero <;> omega) (iff_of_true hok hids)

/-- A handler whose descriptor is that of a client removes the client. -/
theorem handlerStep_removes {t : Nat} {hd : Handler} {i : Fin MAX_CLIENTS}
    (hfound : find_client_by_socket s.host.server
      (s.host.server.clients hd.client).socket_fd = some i)
    (hstep : handlerStep s t hd .cleanup = some s') :
    s' = { s.setHandler t hd .ended with
      host := s.host.remove_client i
      removals := s.removals ++ [(hd.conn, s.owner i)] } := by
  cases hpc : hd.pc with
  | cleanup =>
      simp only [handlerStep, hpc] at hstep
      split_ifs at hstep
      rw [hfound, Option.some.injEq] at hstep
      exact hstep.symm
  | _ => simp [handlerStep, hpc] at hstep

/-- In its cleanup section a handler takes the id of the client it removes, if it
    removes one. -/
theorem effect_cleanup {t : Nat} {hd : Handler} (ht : s.threads[t]? = some hd)
    (hstep : handlerStep s t hd .cleanup = some s')
    (hlen : s'.threads.length = s.threads.length) (hmain : s'.main.passed = s.main.passed) :
    Effect s (.handler t .cleanup) s' := by
  -- The descriptor read in the section is that of nobody, or of a client who is
  -- removed.
  cases hfound : find_client_by_socket s.host.server
      (s.host.server.clients hd.client).socket_fd with
  | none =>
      have hok : KeepsRecords s (.handler t .cleanup) := by
        intro h hh i hi
        cases ht.symm.trans hh
        cases hfound.symm.trans hi
      rcases handlerStep_cleanup hstep with ⟨_, _, rfl | ⟨i, hi, _⟩⟩
      · exact effect_same (fun _ => rfl) hlen rfl (Or.inl hmain) hok
      · cases hfound.symm.trans hi
  | some i =>
      rcases find_client_by_socket_some hfound with ⟨_, hactive, _⟩
      have hkeeps : KeepsRecords s (.handler t .cleanup) ↔ s.thread_id i = 0 := by
        constructor
        · exact fun hok => hok hd ht i hfound
        · intro hzero h hh j hj
          cases ht.symm.trans hh
          cases hfound.symm.trans hj
          exact hzero
      obtain rfl := handlerStep_removes hfound hstep
      have hself := remove_client_thread hactive
      have hother : ∀ j, j ≠ i →
          ((Chat.remove_client s.host.server i).1.clients j).thread_id = s.thread_id j :=
        fun j hji => congrArg ServerClient.thread_id (remove_client_other _ hji)
      refine .clears (fun j => ?_) hlen rfl (fun j hj => Or.inl hj) ?_
      · by_cases hji : j = i
        · rw [hji]
          exact Or.inr hself
        · exact Or.inl (hother j hji)
      · rw [hkeeps]
        constructor
        · intro hzero j
          by_cases hji : j = i
          · rw [hji, hzero]
            exact hself
          · exact hother j hji
        · exact fun hall => (hall i).symm.trans hself

theorem effect_handlerStep {t : Nat} {hd : Handler} (ht : s.threads[t]? = some hd)
    {e : HandlerEvent} (hstep : handlerStep s t hd e = some s') :
    Effect s (.handler t e) s' := by
  rcases handlerStep_frame hstep with ⟨⟨pc, hthreads⟩, hmain, _⟩
  have hlen : s'.threads.length = s.threads.length := by rw [hthreads, List.length_set]
  by_cases hcleanup : e = .cleanup
  · rw [hcleanup] at hstep ⊢
    exact effect_cleanup ht hstep hlen (congrArg Main.passed hmain)
  · have hok : KeepsRecords s (.handler t e) := by
      cases e with
      | cleanup => exact absurd rfl hcleanup
      | _ => trivial
    exact effect_same (handlerStep_thread_id hstep hcleanup) hlen rfl
      (Or.inl (congrArg Main.passed hmain)) hok

/-- A connection with a valid new name is not refused while a slot is free. -/
theorem register_fills {a : Accepted} {id_msg : Message} {now : TimeT} {created : Bool}
    (hvalid : validate_client_id id_msg.sender_id.bytes = true)
    (hnew : find_client_by_id s.host.server id_msg.sender_id.bytes = none)
    (hfd : 0 ≤ a.client_socket) {i : Fin MAX_CLIENTS} (hfree : freeSlot s.host.server = some i)
    (err_msg : Message) :
    register s a id_msg now created ≠ { s with main := .refusing a err_msg } := by
  intro heq
  have hmain := congrArg State.main heq
  unfold register add_client fillSlot at hmain
  rw [hvalid, hnew, if_neg (by omega : ¬ a.client_socket < 0), hfree] at hmain
  cases created <;> cases hmain

theorem effect_register {a : Accepted} {id_msg : Message} (hmain : s.main = .registering a id_msg)
    (now : TimeT) (created : Bool) :
    Effect s (.main (.register now created)) (register s a id_msg now created) := by
  have hkeeps : KeepsRecords s (.main (.register now created)) ↔
      (validate_client_id id_msg.sender_id.bytes = true →
        find_client_by_id s.host.server id_msg.sender_id.bytes = none → 0 ≤ a.client_socket →
          ∀ i ∈ freeSlot s.host.server, s.thread_id i = 0) := by
    unfold KeepsRecords
    rw [hmain]
  rcases register_cases a id_msg now created with
    ⟨err_msg, hs'⟩ | ⟨i, hpos, hfree, hvalid, hnew, hs'⟩
  · -- A registration that is refused fills no slot, so nothing is asked of it.
    have hok : KeepsRecords s (.main (.register now created)) :=
      hkeeps.mpr fun hvalid hnew hpos i hfree =>
        absurd hs' (register_fills hvalid hnew hpos hfree err_msg)
    rw [hs']
    exact effect_same (fun _ => rfl) rfl rfl (Or.inr rfl) hok
  · have hiff : KeepsRecords s (.main (.register now created)) ↔ s.thread_id i = 0 := by
      rw [hkeeps]
      constructor
      · exact fun hok => hok hvalid hnew hpos i hfree
      · intro hzero _ _ _ j hj
        cases hfree.symm.trans hj
        exact hzero
    have hother : ∀ thread_id j, j ≠ i →
        ((enrolled s.host.server a id_msg.sender_id.bytes now i thread_id).clients j)
          = s.host.server.clients j := fun _ _ hj => setSlot_other _ _ hj
    have hself : ∀ thread_id,
        ((enrolled s.host.server a id_msg.sender_id.bytes now i thread_id).clients i)
          = { filled (s.host.server.clients i) a.client_socket a.client_addr
              id_msg.sender_id.bytes now with thread_id := thread_id } :=
      fun _ => setSlot_self _ _ _
    rw [hs']
    cases created with
    | true =>
        rw [if_pos rfl]
        refine .fills i (fun j hj => ?_) (Or.inr ⟨?_, ?_⟩) rfl rfl hiff
        · exact congrArg ServerClient.thread_id (hother _ j hj)
        · exact congrArg ServerClient.thread_id (hself (s.threads.length + 1))
        · exact List.length_append
    | false =>
        rw [if_neg Bool.false_ne_true]
        -- There is no thread, and the client is removed again.
        refine .fills i (fun j hj => ?_) (Or.inl ⟨?_, rfl⟩) rfl rfl hiff
        · exact congrArg ServerClient.thread_id ((remove_client_other _ hj).trans (hother 0 j hj))
        · exact remove_client_thread (congrArg ServerClient.is_active (hself 0))

theorem effect_join (hstep : mainStep s .join = some s') : Effect s (.main .join) s' := by
  rcases mainStep_join hstep with ⟨n, hmain, _⟩
  have hpassed : s.main.passed = n := by rw [hmain]; rfl
  rcases mainStep_join_cases hmain hstep with ⟨hn, hzero, rfl⟩ | ⟨hn, hne, rfl⟩ | ⟨hn, rfl⟩
  · change s.thread_id ⟨n, hn⟩ = 0 at hzero
    have hjoins : joinedBy s (.main .join) = [] := by
      simp only [joinedBy, hmain]
      rw [dif_pos hn, if_pos hzero]
    refine .clears (fun _ => Or.inl rfl) rfl hjoins (fun i hi => ?_)
      (iff_of_true trivial fun _ => rfl)
    change i.val < n + 1 at hi
    by_cases heq : i.val = n
    · have hi' : i = ⟨n, hn⟩ := Fin.ext heq
      rw [hi']
      exact Or.inr hzero
    · exact Or.inl (by omega)
  · change s.thread_id ⟨n, hn⟩ ≠ 0 at hne
    have hjoins : joinedBy s (.main .join) = [s.thread_id ⟨n, hn⟩] := by
      simp only [joinedBy, hmain]
      rw [dif_pos hn, if_neg hne]
    have hself := congrArg ServerClient.thread_id (setSlot_self s.host.server ⟨n, hn⟩
      { s.host.server.clients ⟨n, hn⟩ with thread_id := 0 })
    refine .joins ⟨n, hn⟩ hne hself (fun j hj => ?_) rfl hjoins (fun i hi => ?_) trivial
    · exact congrArg ServerClient.thread_id (setSlot_other _ _ hj)
    · change i.val < n + 1 at hi
      by_cases heq : i.val = n
      · have hi' : i = ⟨n, hn⟩ := Fin.ext heq
        rw [hi']
        exact Or.inr hself
      · exact Or.inl (by omega)
  · -- The loop is left, and all slots are behind it.
    have hjoins : joinedBy s (.main .join) = [] := by
      simp only [joinedBy, hmain]
      rw [dif_neg hn]
    refine .clears (fun _ => Or.inl rfl) rfl hjoins (fun i _ => Or.inl ?_)
      (iff_of_true trivial fun _ => rfl)
    exact Nat.lt_of_lt_of_le i.isLt (by omega)

theorem effect_mainStep {e : MainEvent} (hstep : mainStep s e = some s') :
    Effect s (.main e) s' := by
  cases e with
  | start created =>
      rcases mainStep_start hstep with ⟨_, rfl⟩
      cases created with
      | true => exact effect_same (fun _ => rfl) rfl rfl (Or.inr rfl) trivial
      | false => exact effect_same (fun _ => rfl) rfl rfl (Or.inr rfl) trivial
  | test =>
      rcases mainStep_test hstep with ⟨_, rfl⟩
      refine effect_same (fun _ => rfl) rfl rfl (Or.inr ?_) trivial
      cases s.host.server.is_running <;> rfl
  | accept r =>
      rcases mainStep_accept hstep with ⟨_, ⟨_, rfl⟩ | ⟨fd, addr, _, _, _, rfl⟩⟩
      · exact effect_same (fun _ => rfl) rfl rfl (Or.inr rfl) trivial
      · exact effect_same (fun _ => rfl) rfl rfl (Or.inr rfl) trivial
  | configure ok =>
      rcases mainStep_configure hstep with ⟨a, _, rfl⟩
      refine effect_same (fun _ => rfl) rfl rfl (Or.inr ?_) trivial
      cases ok <;> rfl
  | identify r now =>
      rcases mainStep_identify hstep with ⟨a, _, rfl | ⟨id_msg, _, rfl⟩⟩
      · exact effect_same (fun _ => rfl) rfl rfl (Or.inr rfl) trivial
      · exact effect_same (fun _ => rfl) rfl rfl (Or.inr rfl) trivial
  | register now created =>
      rcases mainStep_register hstep with ⟨a, id_msg, hmain, rfl⟩
      exact effect_register hmain now created
  | refuse ok =>
      rcases mainStep_refuse hstep with ⟨a, err_msg, _, rfl⟩
      exact effect_same (fun _ => rfl) rfl rfl (Or.inr rfl) trivial
  | close =>
      rcases mainStep_close hstep with ⟨a, _, rfl⟩
      exact effect_same (fun _ => rfl) rfl rfl (Or.inr rfl) trivial
  | welcome now ok =>
      rcases mainStep_welcome hstep with ⟨a, message, _, rfl⟩
      exact effect_same (fun _ => rfl) rfl rfl (Or.inr rfl) trivial
  | lock =>
      rcases mainStep_lock hstep with ⟨_, rfl⟩
      exact effect_same (fun _ => rfl) rfl rfl (Or.inr rfl) trivial
  | join => exact effect_join hstep

theorem effect_keepaliveStep (h : Attached s.host) {e : KeepaliveEvent}
    (hstep : keepaliveStep s e = some s') : Effect s (.keepalive e) s' := by
  cases e with
  | test =>
      rw [keepaliveStep_test hstep]
      exact effect_same (fun _ => rfl) rfl rfl (Or.inl rfl) trivial
  | sweep input =>
      have hids := sweep_ids_iff input h
      rw [(keepaliveStep_sweep hstep).2]
      generalize sweep input s.host = result at hids ⊢
      exact .clears hids.1 rfl rfl (fun i hi => Or.inl hi) hids.2

/-- `server_stop` takes no thread id from its slot. -/
theorem stopAll_thread (now : TimeT) (oks : Fin MAX_CLIENTS → Bool) (host : Host)
    (i : Fin MAX_CLIENTS) :
    ((stopAll now oks host).1.server.clients i).thread_id = (host.server.clients i).thread_id := by
  have hslot : ∀ (acc : Host × List Delivery) j,
      (acc.1.server.clients i).thread_id = (host.server.clients i).thread_id →
        ((stopSlot now oks acc j).1.server.clients i).thread_id
          = (host.server.clients i).thread_id := by
    intro acc j hacc
    rw [← hacc]
    unfold stopSlot
    simp only []
    split_ifs
    · exact @thread_id_setSlot acc.1.server j (stopped (acc.1.server.clients j)) rfl i
    · rfl
  rw [stopAll]
  exact @foldl_preserves _ _ _ (fun acc : Host × List Delivery =>
    (acc.1.server.clients i).thread_id = (host.server.clients i).thread_id) hslot _ _ rfl

theorem effect_stopStep {e : StopEvent} (hstep : stopStep s e = some s') :
    Effect s (.stop e) s' := by
  cases e with
  | signal =>
      rcases stopStep_signal hstep with rfl | rfl
      · exact effect_same (fun _ => rfl) rfl rfl (Or.inl rfl) trivial
      · exact effect_same (fun _ => rfl) rfl rfl (Or.inl rfl) trivial
  | close =>
      rw [stopStep_close hstep]
      exact effect_same (fun _ => rfl) rfl rfl (Or.inl rfl) trivial
  | notify now oks =>
      have hids := stopAll_thread now oks s.host
      rw [(stopStep_notify hstep).2]
      generalize stopAll now oks s.host = result at hids ⊢
      exact effect_same hids rfl rfl (Or.inl rfl) trivial
  | join =>
      rw [stopStep_join hstep]
      exact effect_same (fun _ => rfl) rfl rfl (Or.inl rfl) trivial

/-- Every step has one of the three effects. -/
theorem effect_step (h : Seated s) {e : Event} (hstep : step s e = some s') : Effect s e s' := by
  cases e with
  | handler t e =>
      rcases Option.bind_eq_some_iff.mp hstep with ⟨hd, ht, hmove⟩
      exact effect_handlerStep ht hmove
  | main e => exact effect_mainStep hstep
  | keepalive e => exact effect_keepaliveStep h.attached hstep
  | stop e => exact effect_stopStep hstep

end Effects

/-- No thread stands in two slots, or in a slot and among the joined ones, and
    the slots the joining loop is past have none. -/
structure Rolled (r : Roll) : Prop where
  seated : Seated r.state
  known : ∀ i, r.state.thread_id i ≤ r.state.threads.length
  unique : ∀ i j, r.state.thread_id i ≠ 0 → r.state.thread_id j = r.state.thread_id i → j = i
  joined_known : ∀ id ∈ r.joined, id ≤ r.state.threads.length
  nodup : r.joined.Nodup
  apart : ∀ i, r.state.thread_id i ≠ 0 → r.state.thread_id i ∉ r.joined
  passed : ∀ i : Fin MAX_CLIENTS, i.val < r.state.main.passed → r.state.thread_id i = 0

/-- Each thread created has been joined or stands in a slot. -/
def NoneLost (r : Roll) : Prop :=
  ∀ t < r.state.threads.length, t + 1 ∈ r.joined ∨ ∃ i, r.state.thread_id i = t + 1

section Rolls

variable {r r' : Roll} {e : Event}

theorem rollStep_some (hstep : rollStep r e = some r') :
    step r.state e = some r'.state ∧ r'.joined = r.joined ++ joinedBy r.state e := by
  rcases Option.map_eq_some_iff.mp hstep with ⟨s', hs', rfl⟩
  exact ⟨hs', rfl⟩

/-- Where ids are only taken from slots. -/
theorem rolled_of_cleared (h : Rolled r) (hseated : Seated r'.state)
    (hids : ∀ i, r'.state.thread_id i = r.state.thread_id i ∨ r'.state.thread_id i = 0)
    (hlen : r'.state.threads.length = r.state.threads.length)
    (hpassed : ∀ i : Fin MAX_CLIENTS, i.val < r'.state.main.passed →
      i.val < r.state.main.passed ∨ r'.state.thread_id i = 0)
    (hknown : ∀ id ∈ r'.joined, id ≤ r.state.threads.length) (hnodup : r'.joined.Nodup)
    (hapart : ∀ i, r'.state.thread_id i ≠ 0 → r.state.thread_id i ∉ r'.joined) : Rolled r' := by
  have hold : ∀ i, r'.state.thread_id i ≠ 0 → r'.state.thread_id i = r.state.thread_id i :=
    fun i hi => (hids i).resolve_right hi
  refine ⟨hseated, fun i => ?_, fun i j hi hij => ?_, ?_, hnodup, fun i hi => ?_, fun i hi => ?_⟩
  · rw [hlen]
    have hle := h.known i
    rcases hids i with hsame | hzero <;> omega
  · have hi' := hold i hi
    have hj' := hold j (by rw [hij]; exact hi)
    exact h.unique i j (by rw [← hi']; exact hi) (by rw [← hj', ← hi', hij])
  · rw [hlen]
    exact hknown
  · rw [hold i hi]
    exact hapart i hi
  · rcases hpassed i hi with hbefore | hzero
    · have hgone := h.passed i hbefore
      rcases hids i with hsame | hzero <;> omega
    · exact hzero

/-- Where a slot is filled in, with the id of a new thread or with none. -/
theorem rolled_of_filled (h : Rolled r) (hseated : Seated r'.state) {i : Fin MAX_CLIENTS}
    (hother : ∀ j, j ≠ i → r'.state.thread_id j = r.state.thread_id j)
    (hid : r'.state.thread_id i = 0 ∧ r'.state.threads.length = r.state.threads.length ∨
      r'.state.thread_id i = r.state.threads.length + 1 ∧
        r'.state.threads.length = r.state.threads.length + 1)
    (hjoined : r'.joined = r.joined) (hpassed : r'.state.main.passed = 0) : Rolled r' := by
  have hle : r.state.threads.length ≤ r'.state.threads.length := by omega
  -- An id that was there before is not that of the thread just created.
  have hnew : ∀ j, r'.state.thread_id j ≠ 0 →
      j ≠ i ∧ r'.state.thread_id j = r.state.thread_id j ∨
        j = i ∧ r'.state.thread_id j = r.state.threads.length + 1 := by
    intro j hj
    by_cases hji : j = i
    · rw [hji] at hj ⊢
      exact Or.inr ⟨rfl, by omega⟩
    · exact Or.inl ⟨hji, hother j hji⟩
  refine ⟨hseated, fun j => ?_, fun j k hj hjk => ?_, fun id hmem => ?_, ?_, fun j hj => ?_,
    fun j hj => ?_⟩
  · by_cases hji : j = i
    · rw [hji]
      omega
    · rw [hother j hji]
      exact (h.known j).trans hle
  · have hj' := h.known j
    have hk' := h.known k
    rcases hnew j hj with ⟨hji, hjsame⟩ | ⟨hji, hjnew⟩
    · rcases hnew k (by omega) with ⟨_, hksame⟩ | ⟨_, hknew⟩
      · exact h.unique j k (by omega) (by omega)
      · omega
    · rcases hnew k (by omega) with ⟨_, hksame⟩ | ⟨hki, _⟩
      · omega
      · rw [hki, hji]
  · rw [hjoined] at hmem
    exact (h.joined_known id hmem).trans hle
  · rw [hjoined]
    exact h.nodup
  · rw [hjoined]
    rcases hnew j hj with ⟨_, hsame⟩ | ⟨_, hfresh⟩
    · rw [hsame] at hj ⊢
      exact h.apart j hj
    · intro hmem
      have hold := h.joined_known _ hmem
      omega
  · rw [hpassed] at hj
    exact absurd hj (Nat.not_lt_zero _)

/-- Where the thread of a slot is joined, its id leaves the slot. -/
theorem rolled_of_joined (h : Rolled r) (hseated : Seated r'.state) {i : Fin MAX_CLIENTS}
    (hold : r.state.thread_id i ≠ 0) (hnew : r'.state.thread_id i = 0)
    (hother : ∀ j, j ≠ i → r'.state.thread_id j = r.state.thread_id j)
    (hlen : r'.state.threads.length = r.state.threads.length)
    (hjoined : r'.joined = r.joined ++ [r.state.thread_id i])
    (hpassed : ∀ j : Fin MAX_CLIENTS, j.val < r'.state.main.passed →
      j.val < r.state.main.passed ∨ r'.state.thread_id j = 0) : Rolled r' := by
  -- The id that is joined leaves its slot, and stood in no other.
  have hne : ∀ j, r'.state.thread_id j ≠ 0 → j ≠ i := by
    rintro j hj rfl
    exact hj hnew
  refine rolled_of_cleared h hseated (fun j => ?_) hlen hpassed (fun id hmem => ?_) ?_
    fun j hj hmem => ?_
  · by_cases hji : j = i
    · rw [hji]
      exact Or.inr hnew
    · exact Or.inl (hother j hji)
  · rw [hjoined] at hmem
    rcases List.mem_append.mp hmem with hbefore | hlast
    · exact h.joined_known id hbefore
    · rw [List.mem_singleton.mp hlast]
      exact h.known i
  · rw [hjoined]
    refine List.Nodup.append h.nodup (List.nodup_singleton _) ?_
    exact List.disjoint_singleton.mpr (h.apart i hold)
  · rw [hjoined] at hmem
    have hji := hne j hj
    have hj' : r.state.thread_id j ≠ 0 := by
      rw [← hother j hji]
      exact hj
    rcases List.mem_append.mp hmem with hbefore | hlast
    · exact h.apart j hj' hbefore
    · exact hji (h.unique i j hold (List.mem_singleton.mp hlast))

theorem rolled_step (h : Rolled r) (hstep : rollStep r e = some r') : Rolled r' := by
  rcases rollStep_some hstep with ⟨hmove, hjoined⟩
  have hseated := seated_step h.seated hmove
  cases effect_step h.seated hmove with
  | clears hids hlen hjoins hpassed _ =>
      rw [hjoins, List.append_nil] at hjoined
      refine rolled_of_cleared h hseated hids hlen hpassed ?_ ?_ fun i hi => ?_
      · rw [hjoined]
        exact h.joined_known
      · rw [hjoined]
        exact h.nodup
      · rw [hjoined]
        refine h.apart i fun hzero => hi ?_
        rcases hids i with hsame | hgone <;> omega
  | fills i hother hid hjoins hpassed _ =>
      rw [hjoins, List.append_nil] at hjoined
      exact rolled_of_filled h hseated hother hid hjoined hpassed
  | joins i hold hnew hother hlen hjoins hpassed _ =>
      rw [hjoins] at hjoined
      exact rolled_of_joined h hseated hold hnew hother hlen hjoined hpassed

/-- Where ids are only taken from slots, no thread is lost if none is taken. -/
theorem noneLost_cleared (h : Rolled r)
    (hids : ∀ i, r'.state.thread_id i = r.state.thread_id i ∨ r'.state.thread_id i = 0)
    (hlen : r'.state.threads.length = r.state.threads.length) (hjoined : r'.joined = r.joined) :
    NoneLost r' ↔ NoneLost r ∧ ∀ i, r'.state.thread_id i = r.state.thread_id i := by
  unfold NoneLost
  rw [hjoined, hlen]
  constructor
  · intro hwhole
    -- What is found afterwards was there before.
    have hback : ∀ i t, r'.state.thread_id i = t + 1 → r.state.thread_id i = t + 1 := by
      intro i t hi
      rcases hids i with hsame | hzero <;> omega
    refine ⟨fun t ht => ?_, fun i => ?_⟩
    · rcases hwhole t ht with hmem | ⟨i, hi⟩
      · exact Or.inl hmem
      · exact Or.inr ⟨i, hback i t hi⟩
    · -- An id that is taken away is found nowhere else.
      refine (hids i).elim id fun hzero => ?_
      by_contra hne
      have hknown := h.known i
      have hsucc : r.state.thread_id i - 1 + 1 = r.state.thread_id i := by omega
      rcases hwhole (r.state.thread_id i - 1) (by omega) with hmem | ⟨j, hj⟩
      · rw [hsucc] at hmem
        exact h.apart i (by omega) hmem
      · have hji := h.unique i j (by omega) ((hback j _ hj).trans hsucc)
        rw [hji] at hj
        omega
  · rintro ⟨hwhole, hall⟩ t ht
    rcases hwhole t ht with hmem | ⟨i, hi⟩
    · exact Or.inl hmem
    · exact Or.inr ⟨i, (hall i).trans hi⟩

/-- Where a slot is filled in, the thread that stood there is lost. -/
theorem noneLost_filled (h : Rolled r) {i : Fin MAX_CLIENTS}
    (hother : ∀ j, j ≠ i → r'.state.thread_id j = r.state.thread_id j)
    (hid : r'.state.thread_id i = 0 ∧ r'.state.threads.length = r.state.threads.length ∨
      r'.state.thread_id i = r.state.threads.length + 1 ∧
        r'.state.threads.length = r.state.threads.length + 1)
    (hjoined : r'.joined = r.joined) :
    NoneLost r' ↔ NoneLost r ∧ r.state.thread_id i = 0 := by
  unfold NoneLost
  rw [hjoined]
  constructor
  · intro hwhole
    have hback : ∀ t < r.state.threads.length,
        t + 1 ∈ r.joined ∨ ∃ j, j ≠ i ∧ r.state.thread_id j = t + 1 := by
      intro t ht
      rcases hwhole t (by omega) with hmem | ⟨j, hj⟩
      · exact Or.inl hmem
      · have hji : j ≠ i := by
          rintro rfl
          omega
        exact Or.inr ⟨j, hji, (hother j hji).symm.trans hj⟩
    refine ⟨fun t ht => ?_, ?_⟩
    · rcases hback t ht with hmem | ⟨j, _, hj⟩
      · exact Or.inl hmem
      · exact Or.inr ⟨j, hj⟩
    · -- The thread whose id is overwritten would be lost.
      by_contra hne
      have hknown := h.known i
      have hsucc : r.state.thread_id i - 1 + 1 = r.state.thread_id i := by omega
      rcases hback (r.state.thread_id i - 1) (by omega) with hmem | ⟨j, hji, hj⟩
      · rw [hsucc] at hmem
        exact h.apart i hne hmem
      · exact hji (h.unique i j hne (hj.trans hsucc))
  · rintro ⟨hwhole, hzero⟩ t ht
    by_cases hold : t < r.state.threads.length
    · rcases hwhole t hold with hmem | ⟨j, hj⟩
      · exact Or.inl hmem
      · have hji : j ≠ i := by
          rintro rfl
          omega
        exact Or.inr ⟨j, (hother j hji).trans hj⟩
    · -- The thread that is new stands in the slot just filled.
      exact Or.inr ⟨i, by omega⟩

/-- Where the thread of a slot is joined, none is lost. -/
theorem noneLost_joined {i : Fin MAX_CLIENTS} (hnew : r'.state.thread_id i = 0)
    (hother : ∀ j, j ≠ i → r'.state.thread_id j = r.state.thread_id j)
    (hlen : r'.state.threads.length = r.state.threads.length)
    (hjoined : r'.joined = r.joined ++ [r.state.thread_id i]) : NoneLost r' ↔ NoneLost r := by
  unfold NoneLost
  rw [hjoined, hlen]
  -- The id goes from its slot to those that have been joined.
  refine forall₂_congr fun t _ => ?_
  rw [List.mem_append, List.mem_singleton, or_assoc]
  refine or_congr_right ?_
  constructor
  · rintro (hi | ⟨j, hj⟩)
    · exact ⟨i, hi.symm⟩
    · have hji : j ≠ i := by
        rintro rfl
        omega
      exact ⟨j, (hother j hji).symm.trans hj⟩
  · rintro ⟨j, hj⟩
    by_cases hji : j = i
    · rw [hji] at hj
      exact Or.inl hj.symm
    · exact Or.inr ⟨j, (hother j hji).trans hj⟩

/-- No thread is lost exactly when no id is. -/
theorem noneLost_step (h : Rolled r) (hstep : rollStep r e = some r') :
    NoneLost r' ↔ NoneLost r ∧ KeepsRecords r.state e := by
  rcases rollStep_some hstep with ⟨hmove, hjoined⟩
  cases effect_step h.seated hmove with
  | clears hids hlen hjoins _ hiff =>
      rw [hjoins, List.append_nil] at hjoined
      rw [hiff]
      exact noneLost_cleared h hids hlen hjoined
  | fills i hother hid hjoins _ hiff =>
      rw [hjoins, List.append_nil] at hjoined
      rw [hiff]
      exact noneLost_filled h hother hid hjoined
  | joins i hold hnew hother hlen hjoins _ hok =>
      rw [hjoins] at hjoined
      rw [and_iff_left hok]
      exact noneLost_joined hnew hother hlen hjoined

theorem rolled_start {port server_socket : Int} {s : State}
    (h : start port server_socket = some s) : Rolled ⟨s, []⟩ ∧ NoneLost ⟨s, []⟩ := by
  have hseated := seated_start h
  rcases Option.map_eq_some_iff.mp h with ⟨server, hinit, rfl⟩
  have hzero : ∀ i, (server.clients i).thread_id = 0 := by
    rw [server_init_some hinit]
    exact fun _ => rfl
  refine ⟨⟨hseated, fun i => (hzero i).le, fun i _ hi => absurd (hzero i) hi,
    fun _ hmem => absurd hmem List.not_mem_nil, List.nodup_nil,
    fun _ _ => List.not_mem_nil, fun i _ => hzero i⟩, fun t ht => absurd ht (Nat.not_lt_zero t)⟩

/-- When `server_cleanup` has returned, the threads it has not joined are the
    lost ones. -/
theorem allJoined_iff (h : Rolled r) (hreturned : r.state.main = .returned) :
    AllJoined r ↔ NoneLost r := by
  -- The loop has been past all slots, so that every id left is a joined one.
  have hzero : ∀ i, r.state.thread_id i = 0 := by
    intro i
    refine h.passed i ?_
    rw [hreturned]
    exact i.isLt
  refine forall₂_congr fun t _ => ?_
  constructor
  · intro hcount
    exact Or.inl (List.count_pos_iff.mp (by omega))
  · rintro (hmem | ⟨i, hi⟩)
    · exact List.count_eq_one_of_mem h.nodup hmem
    · rw [hzero i] at hi
      omega

end Rolls

/-- When `server_cleanup` has returned, each handler that was ever created has
    been joined once, if and only if no step of the run took a thread id from
    its slot other than by joining the thread. -/
theorem joined_once_iff (port server_socket : Int) (s : State) (r : Roll) (events : List Event)
    (hstart : start port server_socket = some s)
    (hrun : run rollStep ⟨s, []⟩ events = some r) (hreturned : r.state.main = .returned) :
    AllJoined r ↔ Meets rollStep (fun r e => KeepsRecords r.state e) ⟨s, []⟩ events := by
  rcases rolled_start hstart with ⟨hfirst, hwhole⟩
  have hlast : Rolled r := (reachable_of_run hrun).invariant hfirst
    fun _ _ _ hv _ hstep => rolled_step hv hstep
  have hiff := run_iff (fun _ _ _ hv hstep => rolled_step hv hstep)
    (fun _ _ _ hv hstep => noneLost_step hv hstep) events hfirst hrun
  rw [allJoined_iff hlast hreturned, hiff, and_iff_right hwhole]

/-- The turns of the loop of `server_cleanup`, and its return. -/
def joinsAll : List Event := List.replicate (MAX_CLIENTS + 1) (.main .join)

/-- The handler ends after `server_stop` has taken its client's descriptor, so
    that it removes nobody. -/
def endsInTime : List Event :=
  connected ++ stopping ++ [.handler 0 (.recv_return .eof 0), .handler 0 .cleanup, .main .lock] ++
    joinsAll

theorem joined_once_run :
    ∃ s r, start 5000 3 = some s ∧ run rollStep ⟨s, []⟩ endsInTime = some r ∧
      r.state.main = .returned ∧ r.state.threads.length = 1 ∧ AllJoined r := by
  have hend : ((start 5000 3).bind fun s => (run rollStep ⟨s, []⟩ endsInTime).map fun r =>
      (decide (Meets rollStep (fun r e => KeepsRecords r.state e) ⟨s, []⟩ endsInTime),
        r.state.main, r.state.threads.length)) = some (true, .returned, 1) := by
    decide +kernel
  rcases Option.bind_eq_some_iff.mp hend with ⟨s, hstart, hmap⟩
  rcases Option.map_eq_some_iff.mp hmap with ⟨r, hrun, htriple⟩
  rcases Prod.mk.inj htriple with ⟨hok, hrest⟩
  rcases Prod.mk.inj hrest with ⟨hmain, hlength⟩
  exact ⟨s, r, hstart, hrun, hmain, hlength,
    (joined_once_iff 5000 3 s r endsInTime hstart hrun hmain).mpr (of_decide_eq_true hok)⟩

/-- The client says nothing for three minutes and is removed. -/
def forgotten : List Event :=
  connected ++ aMinuteLater ++ aMinuteLater ++ aMinuteLater ++ stopping ++ [.main .lock] ++ joinsAll

/-- The server is gone, and the handler of the client that was removed is still
    in `recv`. -/
theorem handler_outlives :
    ∃ s r, start 5000 3 = some s ∧ run rollStep ⟨s, []⟩ forgotten = some r ∧
      r.state.main = .returned ∧ r.state.threads.map Handler.pc = [.blocked 4 [] 0] ∧
      ¬ AllJoined r := by
  have hend : ((start 5000 3).bind fun s => (run rollStep ⟨s, []⟩ forgotten).map fun r =>
      (r.state.main, r.state.threads.map Handler.pc, decide (AllJoined r)))
        = some (.returned, [.blocked 4 [] 0], false) := by
    decide +kernel
  rcases Option.bind_eq_some_iff.mp hend with ⟨s, hstart, hmap⟩
  rcases Option.map_eq_some_iff.mp hmap with ⟨r, hrun, htriple⟩
  rcases Prod.mk.inj htriple with ⟨hmain, hrest⟩
  rcases Prod.mk.inj hrest with ⟨hthreads, hlost⟩
  exact ⟨s, r, hstart, hrun, hmain, hthreads, of_decide_eq_false hlost⟩

end Lab10

end OsLabs
