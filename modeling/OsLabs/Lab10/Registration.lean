import OsLabs.Lab10.Ownership
import OsLabs.Lab10.Registry

/-!
# Names and Descriptors of the Registered Clients

The registration of a connection is spread over many steps of the main thread:
it is accepted, configured and identified before the section in which the name
is looked up and a slot is filled in. Meanwhile handlers and sweeps take clients
out of the table and close their descriptors.

What makes the descriptors in the table differ is that the main thread's own
one is open all that time and in no slot. Nobody else can close it, so `accept`
does not return it again, and once it is in a slot, the main thread has
forgotten it. None of this depends on which handlers are still there, so it
holds in all runs, unlike `Owned`, of which it is a part.

A connection that is refused changes nothing in the table, at the step that
refuses it and until it is closed.

## Main definitions

* `SoundTable`: Names and descriptors of the registered clients.
* `Seated`: The invariant for the descriptors.
* `Refuses`: The step refuses the connection.
* `Main.turnedAway`: The connection has been refused and is not closed yet.

## Theorems

* `handlerStep_shrinks`, `keepaliveStep_shrinks`, `stopStep_shrinks`: Only the main thread
  registers.
* `attached_enrolled`: A registration keeps the table attached.
* `seated_step`, `seated_of_reaches`: What every step and every run keeps.
* `refuses_leaves`, `turnedAway_leaves`: A refused connection changes nothing.
* `registration_sound`: All of this in every state the server reaches.
* `registration_sound_run`: A name that is in use is refused.
-/

namespace OsLabs

namespace Lab10

open Chat

/-- The registered clients have valid names, open descriptors, and no two of
    them the same. -/
structure SoundTable (server : Server) : Prop where
  names : ∀ i j, (server.clients i).is_active = true → (server.clients j).is_active = true →
    (server.clients i).client_id.str = (server.clients j).client_id.str → i = j
  valid : ∀ i, (server.clients i).is_active = true →
    validate_client_id (server.clients i).client_id.bytes = true
  descriptors : ∀ i, (server.clients i).is_active = true → 0 ≤ (server.clients i).socket_fd
  apart : ∀ i j, (server.clients i).is_active = true → (server.clients j).is_active = true →
    (server.clients i).socket_fd = (server.clients j).socket_fd → i = j

/-- The table is attached, and the main thread's descriptor is open and in no
    slot. -/
structure Seated (s : State) : Prop where
  attached : Attached s.host
  opened : ∀ a, s.main.unregistered = some a → (s.host.conns a.client_socket).isSome = true
  closable : ∀ a, s.main.closable = some a →
    ∀ i, (s.host.server.clients i).is_active = true →
      (s.host.server.clients i).socket_fd ≠ a.client_socket

/-- The step of the main thread refuses the connection: its first message
    cannot be read, its name is not valid or in use, or no slot is left. -/
def Refuses (s : State) (a : Accepted) : MainEvent → Prop
  | .identify r _ => s.main = .identifying a ∧ r = none
  | .register _ _ => ∃ id_msg, s.main = .registering a id_msg ∧
      (validate_client_id id_msg.sender_id.bytes = false ∨
        (∃ i, (s.host.server.clients i).is_active = true ∧
          (s.host.server.clients i).client_id.str = id_msg.sender_id.str) ∨
        ∀ i, (s.host.server.clients i).is_active = true)
  | _ => False

/-- The connection has been refused and is not closed yet. -/
def Main.turnedAway (m : Main) (a : Accepted) : Prop :=
  m = .closing a ∨ ∃ err_msg, m = .refusing a err_msg

section Shrinking

variable {s s' : State}

/-- A handler registers nobody. -/
theorem handlerStep_shrinks (h : Attached s.host) {t : Nat} {hd : Handler} {e : HandlerEvent}
    (hstep : handlerStep s t hd e = some s') : Shrinks s.host s'.host := by
  rcases handlerStep_host hstep with hsame | ⟨i, now, hnoted⟩ | ⟨_, i, _, hremoved⟩
  · rw [hsame]
    exact shrinks_refl h
  · rw [hnoted]
    exact shrinks_setSlot h i (refreshed now (s.host.server.clients i)) rfl rfl
  · rw [hremoved]
    exact shrinks_remove h i

theorem keepaliveStep_shrinks (h : Attached s.host) {e : KeepaliveEvent}
    (hstep : keepaliveStep s e = some s') : Shrinks s.host s'.host ∧ s'.main = s.main := by
  cases e with
  | test =>
      rw [keepaliveStep_test hstep]
      exact ⟨shrinks_refl h, rfl⟩
  | sweep input =>
      have hsweep := shrinks_sweep input h
      rw [(keepaliveStep_sweep hstep).2]
      generalize sweep input s.host = result at hsweep ⊢
      exact ⟨hsweep, rfl⟩

theorem stopStep_shrinks (h : Attached s.host) {e : StopEvent}
    (hstep : stopStep s e = some s') : Shrinks s.host s'.host ∧ s'.main = s.main := by
  cases e with
  | signal =>
      rcases stopStep_signal hstep with rfl | rfl
      · exact ⟨shrinks_refl h, rfl⟩
      · exact ⟨shrinks_clients h _ rfl, rfl⟩
  | close =>
      rw [stopStep_close hstep]
      exact ⟨shrinks_clients h _ rfl, rfl⟩
  | notify now oks =>
      have hstop := shrinks_stopAll now oks h
      rw [(stopStep_notify hstep).2]
      generalize stopAll now oks s.host = result at hstop ⊢
      exact ⟨hstop, rfl⟩
  | join =>
      rw [stopStep_join hstep]
      exact ⟨shrinks_refl h, rfl⟩

end Shrinking

section Attaching

variable {host : Host}

/-- A descriptor in no slot may be closed, and opened. -/
theorem attached_conns (h : Attached host) (conns : Int → Option Conn)
    (hconns : ∀ i, (host.server.clients i).is_active = true →
      conns (host.server.clients i).socket_fd = host.conns (host.server.clients i).socket_fd) :
    Attached { host with conns := conns } := by
  refine ⟨fun i hi => ?_, h.apart, h.detached⟩
  change 0 ≤ (host.server.clients i).socket_fd ∧
    (conns (host.server.clients i).socket_fd).isSome = true
  rw [hconns i hi]
  exact h.connected i hi

/-- A free slot may be filled in with an open descriptor that is in no slot. -/
theorem attached_enrolled (h : Attached host) {a : Accepted} (hpos : 0 ≤ a.client_socket)
    (hopen : (host.conns a.client_socket).isSome = true)
    (hapart : ∀ i, (host.server.clients i).is_active = true →
      (host.server.clients i).socket_fd ≠ a.client_socket)
    (client_id : List UInt8) (now : TimeT) (i : Fin MAX_CLIENTS) (thread_id : Nat) :
    Attached { host with server := enrolled host.server a client_id now i thread_id } := by
  have hself : (enrolled host.server a client_id now i thread_id).clients i
      = { filled (host.server.clients i) a.client_socket a.client_addr client_id now with
          thread_id := thread_id } := setSlot_self _ _ _
  have hother : ∀ j, j ≠ i →
      (enrolled host.server a client_id now i thread_id).clients j = host.server.clients j :=
    fun j hj => setSlot_other _ _ hj
  generalize enrolled host.server a client_id now i thread_id = server at hself hother ⊢
  -- The name is of no account, nor is the thread.
  have hactive : (server.clients i).is_active = true := by rw [hself]; rfl
  have hfd : (server.clients i).socket_fd = a.client_socket := by rw [hself]; rfl
  exact attached_filled h server hactive hfd hpos hopen hapart hother

end Attaching

section Seating

variable {s s' : State}

theorem closable_of_unregistered {m : Main} {a : Accepted} (h : m.unregistered = some a) :
    m.closable = some a := by
  cases m <;> first | exact h | cases h

/-- Where nobody is registered the main thread's descriptor stays as it is, and
    the main thread may forget it. -/
theorem seated_shrinks (h : Seated s) (hb : Shrinks s.host s'.host)
    (hu : ∀ a, s'.main.unregistered = some a → s.main.unregistered = some a)
    (hc : ∀ a, s'.main.closable = some a → s.main.closable = some a) : Seated s' := by
  refine ⟨h.attached.shrinks hb, fun a ha => ?_, fun a ha i hi => ?_⟩
  · -- What is closed was in a slot, and this descriptor is in none.
    have hclosable := closable_of_unregistered (hu a ha)
    rcases hb.conns a.client_socket with hsame | ⟨_, i, hi, hfd⟩
    · rw [hsame]
      exact h.opened a (hu a ha)
    · exact absurd hfd (h.closable a hclosable i hi)
  · rcases hb.active i hi with ⟨hai, hfd, _⟩
    rw [hfd]
    exact h.closable a (hc a ha) i hai

theorem seated_register (h : Seated s) {a : Accepted} {id_msg : Message}
    (hmain : s.main = .registering a id_msg) (now : TimeT) (created : Bool) :
    Seated (register s a id_msg now created) := by
  have hunregistered : s.main.unregistered = some a := by rw [hmain]; rfl
  rcases register_cases a id_msg now created with
    ⟨err_msg, hs'⟩ | ⟨i, hpos, hfree, hvalid, hnew, hs'⟩
  -- A connection that is refused is still the main thread's to close.
  · rw [hs']
    refine seated_shrinks h (shrinks_refl h.attached) (fun b hb => by cases hb) fun b hb => ?_
    rw [hmain]
    exact hb
  · have henrolled := fun thread_id => attached_enrolled h.attached hpos
      (h.opened a hunregistered) (h.closable a (closable_of_unregistered hunregistered))
      id_msg.sender_id.bytes now i thread_id
    cases created with
    -- With a thread of its own the connection is the handler's from here on.
    | true =>
        rw [hs', if_pos rfl]
        exact ⟨henrolled _, (fun b hb => by cases hb), fun b hb => by cases hb⟩
    | false =>
        rw [hs', if_neg Bool.false_ne_true]
        -- The client just entered is the one that is removed.
        have hshrinks := shrinks_remove (henrolled 0) i
        refine ⟨(henrolled 0).shrinks hshrinks, (fun b hb => by cases hb), fun b hb j hj => ?_⟩
        cases hb
        have hji : j ≠ i := by
          rintro rfl
          exact absurd ((remove_client_inactive _ j).symm.trans hj) Bool.false_ne_true
        have hsame : (Chat.remove_client
            (enrolled s.host.server a id_msg.sender_id.bytes now i 0) i).1.clients j
            = s.host.server.clients j := (remove_client_other _ hji).trans (setSlot_other _ _ hji)
        change ((Chat.remove_client _ i).1.clients j).is_active = true at hj
        change ((Chat.remove_client _ i).1.clients j).socket_fd ≠ a.client_socket
        rw [hsame] at hj ⊢
        exact h.closable a (closable_of_unregistered hunregistered) j hj

theorem seated_mainStep (h : Seated s) {e : MainEvent} (hstep : mainStep s e = some s') :
    Seated s' := by
  have hrefl := shrinks_refl h.attached
  have hnone : ∀ {m : Main} (a : Accepted), (none : Option Accepted) = some a →
      m.closable = some a := fun a ha => by cases ha
  have hnone' : ∀ {m : Main} (a : Accepted), (none : Option Accepted) = some a →
      m.unregistered = some a := fun a ha => by cases ha
  cases e with
  | start created =>
      rcases mainStep_start hstep with ⟨_, rfl⟩
      cases created with
      | true => exact seated_shrinks h (shrinks_clients h.attached _ rfl) hnone' hnone
      | false => exact seated_shrinks h hrefl hnone' hnone
  | test =>
      rcases mainStep_test hstep with ⟨_, rfl⟩
      refine seated_shrinks h hrefl ?_ ?_
      · cases s.host.server.is_running <;> exact hnone'
      · cases s.host.server.is_running <;> exact hnone
  | accept r =>
      rcases mainStep_accept hstep with ⟨_, ⟨_, rfl⟩ | ⟨fd, addr, _, _, hfd, rfl⟩⟩
      · exact seated_shrinks h hrefl hnone' hnone
      · -- Every slot has an open descriptor, and this one was not open.
        have hne : ∀ i, (s.host.server.clients i).is_active = true →
            (s.host.server.clients i).socket_fd ≠ fd := by
          intro i hi heq
          have hopen := (h.attached.connected i hi).2
          rw [heq, hfd] at hopen
          cases hopen
        refine ⟨attached_conns h.attached _ fun i hi => Function.update_of_ne (hne i hi) _ _,
          fun a ha => ?_, fun a ha i hi => ?_⟩
        · cases ha
          exact congrArg Option.isSome (Function.update_self fd (some s.accepted) s.host.conns)
        · cases ha
          exact hne i hi
  | configure ok =>
      rcases mainStep_configure hstep with ⟨a, hmain, rfl⟩
      cases ok with
      | true =>
          refine seated_shrinks h hrefl (fun b hb => ?_) fun b hb => ?_
          · rw [hmain]
            exact hb
          · rw [hmain]
            exact hb
      | false =>
          refine seated_shrinks h hrefl hnone' fun b hb => ?_
          rw [hmain]
          exact hb
  | identify r now =>
      rcases mainStep_identify hstep with ⟨a, hmain, rfl | ⟨id_msg, _, rfl⟩⟩
      · refine seated_shrinks h hrefl hnone' fun b hb => ?_
        rw [hmain]
        exact hb
      · refine seated_shrinks h hrefl (fun b hb => ?_) fun b hb => ?_
        · rw [hmain]
          exact hb
        · rw [hmain]
          exact hb
  | register now created =>
      rcases mainStep_register hstep with ⟨a, id_msg, hmain, rfl⟩
      exact seated_register h hmain now created
  | refuse ok =>
      rcases mainStep_refuse hstep with ⟨a, err_msg, hmain, rfl⟩
      refine seated_shrinks h hrefl hnone' fun b hb => ?_
      rw [hmain]
      exact hb
  -- What is closed is in no slot, so every slot keeps its descriptor.
  | close =>
      rcases mainStep_close hstep with ⟨a, hmain, rfl⟩
      have hne := h.closable a (by rw [hmain]; rfl)
      refine ⟨attached_conns h.attached _ fun i hi => ?_, (fun b hb => by cases hb), fun b hb => ?_⟩
      · simp [closeAll, hne i hi]
      · cases hb
  | welcome now ok =>
      rcases mainStep_welcome hstep with ⟨a, message, _, rfl⟩
      exact seated_shrinks h hrefl hnone' hnone
  | lock =>
      rcases mainStep_lock hstep with ⟨_, rfl⟩
      exact seated_shrinks h hrefl hnone' hnone
  | join =>
      rcases mainStep_join hstep with ⟨n, _, rfl | ⟨hn, rfl⟩ | rfl⟩
      · exact seated_shrinks h hrefl hnone' hnone
      · exact seated_shrinks h (shrinks_setSlot h.attached ⟨n, hn⟩ _ rfl rfl) hnone' hnone
      · exact seated_shrinks h (shrinks_clients h.attached _ rfl) hnone' hnone

/-- The other threads leave the main thread where it is. -/
theorem seated_elsewhere (h : Seated s) (hb : Shrinks s.host s'.host) (hmain : s'.main = s.main) :
    Seated s' := by
  refine seated_shrinks h hb (fun a ha => ?_) fun a ha => ?_
  · rw [hmain] at ha
    exact ha
  · rw [hmain] at ha
    exact ha

theorem seated_step (h : Seated s) {e : Event} (hstep : step s e = some s') : Seated s' := by
  cases e with
  | handler t e =>
      rcases Option.bind_eq_some_iff.mp hstep with ⟨hd, _, hmove⟩
      exact seated_elsewhere h (handlerStep_shrinks h.attached hmove) (handlerStep_frame hmove).2.1
  | main e => exact seated_mainStep h hstep
  | keepalive e =>
      rcases keepaliveStep_shrinks h.attached hstep with ⟨hb, hmain⟩
      exact seated_elsewhere h hb hmain
  | stop e =>
      rcases stopStep_shrinks h.attached hstep with ⟨hb, hmain⟩
      exact seated_elsewhere h hb hmain

theorem seated_start {port server_socket : Int} (h : start port server_socket = some s) :
    Seated s := by
  rcases Option.map_eq_some_iff.mp h with ⟨server, hinit, rfl⟩
  have hfresh : ∀ i, server.clients i = freshSlot := by
    rw [server_init_some hinit]
    exact fun _ => rfl
  have hinactive : ∀ i, ¬ (server.clients i).is_active = true := by
    intro i
    rw [hfresh i]
    exact Bool.false_ne_true
  exact ⟨⟨fun i hi => absurd hi (hinactive i), fun i _ hi => absurd hi (hinactive i),
    fun i _ => congrArg ServerClient.socket_fd (hfresh i)⟩, (fun a ha => by cases ha),
    fun a ha => by cases ha⟩

theorem seated_of_reaches {port server_socket : Int} (hstart : start port server_socket = some s)
    (hreach : Reachable step s s') : Seated s' :=
  hreach.invariant (seated_start hstart) fun _ _ _ hv _ hstep => seated_step hv hstep

end Seating

section Refusing

variable {s s' : State} {a : Accepted} {e : MainEvent}

/-- The step that refuses a connection changes nothing in the server's
    record. -/
theorem refuses_leaves (h : Refuses s a e) (hstep : mainStep s e = some s') :
    s'.host.server = s.host.server ∧ s'.main.turnedAway a := by
  cases e with
  -- Without a first message the main thread goes on to close the connection.
  | identify r now =>
      rcases h with ⟨hmain, rfl⟩
      simp only [mainStep, hmain, Option.some.injEq] at hstep
      rw [← hstep]
      exact ⟨rfl, Or.inl rfl⟩
  | register now created =>
      rcases h with ⟨id_msg, hmain, hwhy⟩
      simp only [mainStep, hmain, Option.some.injEq] at hstep
      rw [← hstep]
      rcases register_cases a id_msg now created with
        ⟨err_msg, hs'⟩ | ⟨i, _, hfree, hvalid, hnew, _⟩
      · rw [hs']
        exact ⟨rfl, Or.inr ⟨err_msg, rfl⟩⟩
      · -- A client that is registered gives no reason to refuse it.
        rcases hwhy with hinvalid | ⟨j, hactive, hname⟩ | hfull
        · exact absurd (hinvalid.symm.trans hvalid) Bool.false_ne_true
        · exact absurd hname (find_client_by_id_none.mp hnew j hactive)
        · have hfilled := firstSlot_some hfree
          rw [hfull i] at hfilled
          cases hfilled
  | _ => exact h.elim

/-- Nor does any step until it is closed. -/
theorem turnedAway_leaves (h : s.main.turnedAway a) (hstep : mainStep s e = some s') :
    s'.host.server = s.host.server ∧ (s'.main.turnedAway a ∨ s'.main = .looping) := by
  rcases h with hmain | ⟨err_msg, hmain⟩
  -- Before it is closed the client may be told why.
  · cases e with
    | close =>
        simp only [mainStep, hmain, Option.some.injEq] at hstep
        rw [← hstep]
        exact ⟨rfl, Or.inr rfl⟩
    | _ => simp only [mainStep, hmain, reduceCtorEq] at hstep
  · cases e with
    | refuse ok =>
        simp only [mainStep, hmain, Option.some.injEq] at hstep
        rw [← hstep]
        exact ⟨rfl, Or.inl (Or.inl rfl)⟩
    | _ => simp only [mainStep, hmain, reduceCtorEq] at hstep

end Refusing

/-- In every state the server reaches, the registered clients have valid names
    and open descriptors and no two of them the same, and a connection that is
    refused changes nothing in the server's record. -/
theorem registration_sound (port server_socket : Int) (s t : State)
    (hstart : start port server_socket = some s) (hreach : Reachable step s t) :
    SoundTable t.host.server ∧
      (∀ a e u, Refuses t a e → step t (.main e) = some u →
        u.host.server = t.host.server ∧ u.main.turnedAway a) ∧
      ∀ a e u, t.main.turnedAway a → step t (.main e) = some u →
        u.host.server = t.host.server ∧ (u.main.turnedAway a ∨ u.main = .looping) := by
  have hnames := registryInv_of_reaches hstart hreach
  have hattached := (seated_of_reaches hstart hreach).attached
  exact ⟨⟨hnames.distinct, hnames.valid, fun i hi => (hattached.connected i hi).1,
      hattached.apart⟩, fun _ _ _ hrefuses hstep => refuses_leaves hrefuses hstep,
    fun _ _ _ haway hstep => turnedAway_leaves haway hstep⟩

/-- A second client claims the name of the first. -/
def secondOfTheName : List Event :=
  [.main (.start true)] ++ connect 4 "ann" 0 ++
    [.main .test, .main (.accept (some (5, { sin_addr := 3, sin_port := 4 }))),
      .main (.configure true),
      .main (.identify (some (create_message .MSG_LIST (bytes "ann") [] [] 0)) 0)]

/-- The name is in use, and the second client is refused. -/
theorem registration_sound_run :
    ∃ s t u a, start 5000 3 = some s ∧ run step s secondOfTheName = some t ∧
      step t (.main (.register 0 true)) = some u ∧ SoundTable t.host.server ∧
      u.host.server = t.host.server ∧ u.main.turnedAway a := by
  have hend : ((start 5000 3).bind fun s => run step s secondOfTheName).map (fun t =>
      ((step t (.main (.register 0 true))).isSome, t.main,
        (t.host.server.clients ⟨0, by decide⟩).is_active,
        (t.host.server.clients ⟨0, by decide⟩).client_id.str))
        = some (true,
          .registering
            { client_socket := 5, client_addr := { sin_addr := 3, sin_port := 4 }, conn := 1 }
            (create_message .MSG_LIST (bytes "ann") [] [] 0),
          true, (create_message .MSG_LIST (bytes "ann") [] [] 0).sender_id.str) := by
    decide +kernel
  rcases Option.map_eq_some_iff.mp hend with ⟨t, hbind, hfour⟩
  rcases Option.bind_eq_some_iff.mp hbind with ⟨s, hstart, hrun⟩
  rcases Prod.mk.inj hfour with ⟨hsome, hrest⟩
  rcases Prod.mk.inj hrest with ⟨hmain, hslot⟩
  rcases Prod.mk.inj hslot with ⟨hactive, hname⟩
  rcases Option.isSome_iff_exists.mp hsome with ⟨u, hstep⟩
  have hsound := registration_sound 5000 3 s t hstart (reachable_of_run hrun)
  have hleaves := hsound.2.1 _ (.register 0 true) u
    ⟨_, hmain, Or.inr (Or.inl ⟨_, hactive, hname⟩)⟩ hstep
  exact ⟨s, t, u, _, hstart, hrun, hstep, hsound.1, hleaves⟩

end Lab10

end OsLabs
