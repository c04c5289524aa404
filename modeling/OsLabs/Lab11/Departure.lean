import OsLabs.Chat.Client
import OsLabs.Lab11.Identity

/-!
# A Client that Leaves

A client of lab11 says goodbye with a STOP, and the server removes it. Then the
server has forgotten it, and any other message registers its sender. UDP does
not keep datagrams in order, and the client's receive thread may still answer a
keepalive message after the STOP has been sent. So what decides whether the
client is registered in the end is the order in which its datagrams are
handled: it is gone exactly when the STOP comes last.

The other clients and the sweeps of the keepalive thread are all around it,
and the order of a client's datagrams is looked at in any run they may take
place in. They can register and remove whom they like, but they do not claim the
client's name. A STOP that comes last is final in all of these runs. Where
another datagram comes last there is one in which the client is registered when
all is done: if the table is full somebody else leaves first, and then every
datagram of the client finds a slot.

## Main definitions

* `Sends`: What a client's functions send.
* `claimsName`: An acceptable datagram that claims a name is received.
* `StopIsFinal`: However the datagrams are handled in this order, the name is
  not registered in the end.

## Theorems

* `sends_sender`: A client sends under its own name.
* `registered_enroll`, `enroll_registers`: Whom the first section registers.
* `leaving_step`: Nobody else registers the name again.
* `welcome_step`: With a slot to be had a datagram registers its sender.
* `stopIsFinal_of_stopLast`, `stopLast_of_stopIsFinal`: A STOP that comes last,
  and one that does not.
* `stopIsFinal_iff`: The STOP is final exactly when it comes last.
* `stopIsFinal_iff_run`: A client that lists and leaves.
* `answer_after_stop`: A client that comes back by an answer.
-/

namespace OsLabs

namespace Lab11

open Chat

/-- What the functions of a client hand to `send_message_protocol`. -/
inductive Sends (client : Client) : Message → Prop
  | list_request (now : TimeT) : Sends client (client_send_list_request client now)
  | to_all (message : List UInt8) (now : TimeT) (msg : Message)
      (h : client_send_2all client message now = some msg) : Sends client msg
  | to_one (recipient_id message : List UInt8) (now : TimeT) (msg : Message)
      (h : client_send_2one client recipient_id message now = some msg) : Sends client msg
  | stop (now : TimeT) : Sends client (client_send_stop client now)
  | alive_response (now : TimeT) : Sends client (client_send_alive_response client now)

/-- A datagram that claims the name is received, and is acceptable. -/
def claimsName (name : List UInt8) : Event → Bool
  | .receive msg _ checked _ _ => validate_message msg checked && decide (msg.sender_id.str = name)
  | _ => false

/-- A STOP is received. -/
def isStop : Event → Bool
  | .receive msg _ _ _ _ => decide (msg.type = MessageType.MSG_STOP.code)
  | _ => false

/-- The datagram is one of the client's, and is acceptable when it arrives. -/
def FromClient (client : Client) : Event → Prop
  | .receive msg _ checked _ _ => Sends client msg ∧ validate_message msg checked = true
  | _ => False

/-- Whatever else happens in a run in which these, in this order, are the
    acceptable datagrams that claim the name, the name is not registered when
    all of them have been handled. -/
def StopIsFinal (t : State) (name : List UInt8) (order : List Event) : Prop :=
  ∀ events u, events.filter (claimsName name) = order → run step t events = some u →
    u.pending = none → ¬ Registered name u.host.server

section Names

variable {name : List UInt8}

/-- A client sends under the name it has been set up with. -/
theorem sends_sender {client_id server_ip : List UInt8} {server_port : Int} {locks : Bool}
    {client : Client} (hinit : client_init client_id server_ip server_port locks = some client)
    {msg : Message} (h : Sends client msg) : msg.sender_id.str = cstr client_id := by
  -- All five fill in the same record.
  have hbuilt : ∃ type recipient_id message now,
      msg = clientMessage client type recipient_id message now := by
    cases h with
    | list_request now => exact ⟨_, _, _, now, rfl⟩
    | to_all message now msg h =>
        unfold client_send_2all at h
        split_ifs at h
        exact ⟨_, _, _, now, (Option.some.inj h).symm⟩
    | to_one recipient_id message now msg h =>
        unfold client_send_2one at h
        split_ifs at h
        exact ⟨_, _, _, now, (Option.some.inj h).symm⟩
    | stop now => exact ⟨_, _, _, now, rfl⟩
    | alive_response now => exact ⟨_, _, _, now, rfl⟩
  rcases hbuilt with ⟨type, recipient_id, message, now, rfl⟩
  rw [clientMessage_sender, client_init_name hinit]

/-- So its acceptable datagrams claim that name. -/
theorem claims_fromClient {client_id server_ip : List UInt8} {server_port : Int} {locks : Bool}
    {client : Client} (hinit : client_init client_id server_ip server_port locks = some client)
    {e : Event} (h : FromClient client e) : claimsName (cstr client_id) e = true := by
  cases e with
  | receive msg client_addr checked now result =>
      rw [claimsName, h.2, sends_sender hinit h.1]
      exact decide_eq_true rfl
  | dispatch now result results => exact h.elim
  | sweep input => exact h.elim

theorem valid_of_init {client_id server_ip : List UInt8} {server_port : Int} {locks : Bool}
    {client : Client} (hinit : client_init client_id server_ip server_port locks = some client) :
    validate_client_id (cstr client_id) = true := by
  rw [validate_client_id_cstr]
  unfold client_init at hinit
  split_ifs at hinit with hbad
  rw [Bool.or_eq_true, not_or] at hbad
  simpa using hbad.2

theorem not_registered_of_find {server : Server} {id : List UInt8}
    (h : find_client_by_id server id = none) : ¬ Registered (cstr id) server := by
  rintro ⟨i, hactive, hname⟩
  exact find_client_by_id_none.mp h i hactive hname

/-- Nobody is registered in a registry that was not before, if all that happens
    is that clients are taken out. -/
theorem not_registered_of_thinned {server server' : Server} (hthin : Thinned server server')
    (h : ¬ Registered name server) : ¬ Registered name server' := by
  rintro ⟨i, hactive, hname⟩
  rcases hthin i hactive with ⟨hold, hid, _⟩
  exact h ⟨i, hold, by rw [← hid]; exact hname⟩

/-- A registry from which the client found under a name has been taken out. -/
theorem not_registered_removed {server : Server} (hinv : RegistryInv server) {id : List UInt8}
    {i : Fin MAX_CLIENTS} (h : find_client_by_id server id = some i) :
    ¬ Registered (cstr id) (remove_client server i).1 := by
  rcases find_client_by_id_some h with ⟨hi, hname⟩
  rintro ⟨j, hactive, hjname⟩
  by_cases hji : j = i
  · rw [hji, remove_client_inactive] at hactive
    cases hactive
  · rw [remove_client_other server hji] at hactive hjname
    exact hji (hinv.distinct j i hactive hi (hjname.trans hname.symm))

end Names

section Enrolling

variable {name : List UInt8} {host : Host} {msg : Message} {client_addr : SockAddrIn}
  {now : TimeT} {result : Option Nat}

/-- The first section registers nobody but the sender. -/
theorem registered_enroll
    (h : Registered name (enroll host msg client_addr now result).1.server) :
    Registered name host.server ∨ msg.sender_id.str = name := by
  rcases h with ⟨i, hactive, hname⟩
  unfold enroll at hactive hname
  cases hfound : find_client_by_id host.server msg.sender_id.bytes with
  | some j =>
      -- The sender is known, and only its slot is written.
      simp only [hfound] at hactive hname
      by_cases hij : i = j
      · rw [hij, setSlot_self] at hname
        refine Or.inr ?_
        rw [← hname]
        exact (find_client_by_id_some hfound).2.symm
      · rw [setSlot_other _ _ hij] at hactive hname
        exact Or.inl ⟨i, hactive, hname⟩
  | none =>
      simp only [hfound] at hactive hname
      split_ifs at hactive hname with hstop hvalid
      · exact Or.inl ⟨i, hactive, hname⟩
      · exact Or.inl ⟨i, hactive, hname⟩
      · unfold add_client_udp fillSlot at hactive hname
        cases hfree : freeSlot host.server with
        | none =>
            simp only [hfree] at hactive hname
            exact Or.inl ⟨i, hactive, hname⟩
        | some j =>
            simp only [hfree, Server.setSlot, Function.update_self, Function.update_idem]
              at hactive hname
            by_cases hij : i = j
            · rw [hij, Function.update_self] at hname
              refine Or.inr ?_
              rw [← hname]
              exact (filled_name _ _ client_addr now (by simpa using hvalid)).symm
            · rw [Function.update_of_ne hij] at hactive hname
              exact Or.inl ⟨i, hactive, hname⟩

/-- There is a slot for the name: it is registered, or some slot is free. -/
def HasRoom (name : List UInt8) (server : Server) : Prop :=
  Registered name server ∨ ∃ i, (server.clients i).is_active = false

/-- A STOP is never answered by the first section, and registers nobody. -/
theorem enroll_stop (htype : msg.type = MessageType.MSG_STOP.code) :
    (enroll host msg client_addr now result).2 = none ∧
      (find_client_by_id host.server msg.sender_id.bytes = none →
        (enroll host msg client_addr now result).1 = host) := by
  unfold enroll
  cases hfound : find_client_by_id host.server msg.sender_id.bytes with
  | some j => exact ⟨rfl, fun h => by cases h⟩
  | none =>
      simp only [if_pos htype]
      exact ⟨trivial, fun _ => trivial⟩

/-- With a slot to be had, every other message of a sender with a valid name
    leaves it registered. -/
theorem enroll_registers (hvalid : validate_client_id msg.sender_id.bytes = true)
    (htype : msg.type ≠ MessageType.MSG_STOP.code)
    (hroom : HasRoom msg.sender_id.str host.server) :
    (enroll host msg client_addr now result).2 = none ∧
      Registered msg.sender_id.str (enroll host msg client_addr now result).1.server := by
  unfold enroll
  cases hfound : find_client_by_id host.server msg.sender_id.bytes with
  | some j =>
      rcases find_client_by_id_some hfound with ⟨hactive, hname⟩
      refine ⟨rfl, j, ?_, ?_⟩
      · simp only [setSlot_self]
        exact hactive
      · simp only [setSlot_self]
        exact hname
  | none =>
      have hnot := not_registered_of_find hfound
      rcases hroom with hreg | ⟨i, hinactive⟩
      · exact absurd hreg hnot
      · simp only [if_neg htype, hvalid, Bool.not_true, Bool.false_eq_true, if_false,
          add_client_udp, fillSlot]
        cases hfree : freeSlot host.server with
        | none =>
            have hall := firstSlot_eq_none_iff.mp hfree i
            rw [hinactive] at hall
            cases hall
        | some j =>
            refine ⟨rfl, j, ?_, ?_⟩
            · simp only [Server.setSlot, Function.update_self]
              rfl
            · simp only [Server.setSlot, Function.update_self]
              exact filled_name _ _ client_addr now hvalid

/-- The handlers of the other messages leave the table alone. -/
theorem dispatch_host (htype : msg.type ≠ MessageType.MSG_STOP.code) (now : TimeT)
    (result : Option Nat) (results : Fin MAX_CLIENTS → Option Nat) :
    (dispatch host msg client_addr now result results).1 = host := by
  unfold dispatch
  split_ifs <;> rfl

/-- The handler of a STOP takes its sender out, which leaves a slot free. -/
theorem dispatch_stop (hinv : RegistryInv host.server)
    (htype : msg.type = MessageType.MSG_STOP.code) (now : TimeT) (result : Option Nat)
    (results : Fin MAX_CLIENTS → Option Nat) :
    ¬ Registered msg.sender_id.str (dispatch host msg client_addr now result results).1.server ∧
      (HasRoom msg.sender_id.str host.server →
        HasRoom msg.sender_id.str
          (dispatch host msg client_addr now result results).1.server) := by
  have hcodes : MessageType.MSG_STOP.code ≠ MessageType.MSG_LIST.code ∧
      MessageType.MSG_STOP.code ≠ MessageType.MSG_2ALL.code ∧
      MessageType.MSG_STOP.code ≠ MessageType.MSG_2ONE.code := by decide
  unfold dispatch
  rw [htype, if_neg hcodes.1, if_neg hcodes.2.1, if_neg hcodes.2.2, if_pos rfl,
    handle_stop_request_udp]
  cases hfound : find_client_by_id host.server msg.sender_id.bytes with
  | none => exact ⟨not_registered_of_find hfound, id⟩
  | some i =>
      refine ⟨not_registered_removed hinv hfound, fun _ => Or.inr ⟨i, ?_⟩⟩
      exact remove_client_inactive host.server i

end Enrolling

section Runs

variable {name : List UInt8} {s s' t : State}

/-- The name is not registered, or a STOP is about to see to that. -/
structure Leaving (name : List UInt8) (s : State) : Prop where
  sound : RegistryInv s.host.server
  gone : ¬ Registered name s.host.server ∨ ∃ p, s.pending = some p ∧
    p.1.type = MessageType.MSG_STOP.code ∧ p.1.sender_id.str = name

/-- An acceptable datagram is taken in. -/
theorem step_receive_valid {msg : Message} {checked : TimeT} (hidle : s.pending = none)
    (hvalid : validate_message msg checked = true) (client_addr : SockAddrIn) (now : TimeT)
    (result : Option Nat) (hreply : (enroll s.host msg client_addr now result).2 = none) :
    step s (.receive msg client_addr checked now result) = some
      { host := (enroll s.host msg client_addr now result).1
        pending := some (msg, client_addr) } := by
  rw [step, hidle, hvalid]
  cases hresult : enroll s.host msg client_addr now result with
  | mk host reply =>
      rw [hresult] at hreply
      simp only [] at hreply
      rw [hreply]
      rfl

/-- Without another datagram that claims the name it stays gone. -/
theorem leaving_step (h : Leaving name s) {e : Event} (hother : claimsName name e = false)
    (hstep : step s e = some s') : Leaving name s' := by
  refine ⟨step_preserves kept_registryInv s s' e h.sound hstep, ?_⟩
  cases e with
  | receive msg client_addr checked now result =>
      rcases step_receive hstep with ⟨hidle, ⟨_, rfl⟩ | ⟨hvalid, hhost, _⟩⟩
      · exact h.gone
      · rcases h.gone with hgone | ⟨p, hp, _⟩
        · -- Whoever is registered now was before, or has another name.
          refine Or.inl fun hreg => ?_
          rw [hhost] at hreg
          rcases registered_enroll hreg with hold | hsame
          · exact hgone hold
          · rw [claimsName, hvalid, hsame] at hother
            simp at hother
        · rw [hidle] at hp
          cases hp
  | dispatch now result results =>
      rcases Option.map_eq_some_iff.mp hstep with ⟨p, hp, rfl⟩
      rcases h.gone with hgone | ⟨q, hq, htype, hname⟩
      · exact Or.inl (not_registered_of_thinned (thinned_dispatch s.host p.1 p.2 now result results)
          hgone)
      · rw [hq, Option.some.injEq] at hp
        rw [← hp, ← hname]
        exact Or.inl (dispatch_stop h.sound htype now result results).1
  | sweep input =>
      have hthin := (swept_sweep input s.host).1
      rw [step, Option.some.injEq] at hstep
      subst hstep
      generalize sweep input s.host = result at hthin ⊢
      exact h.gone.imp_left fun hgone => not_registered_of_thinned hthin hgone

/-- The same for a run. -/
theorem leaving_run (events : List Event) (h : Leaving name s)
    (hothers : ∀ e ∈ events, claimsName name e = false) (hrun : run step s events = some t) :
    Leaving name t := by
  induction events generalizing s with
  | nil =>
      simp only [run, Option.some.injEq] at hrun
      rw [← hrun]
      exact h
  | cons e events ih =>
      rcases run_cons_eq_some.mp hrun with ⟨u, hstep, hrest⟩
      exact ih (leaving_step h (hothers e List.mem_cons_self) hstep)
        (fun e' he' => hothers e' (List.mem_cons_of_mem _ he')) hrest

/-- Between two datagrams, with a slot to be had for the name. -/
structure Welcome (name : List UInt8) (s : State) : Prop where
  sound : RegistryInv s.host.server
  idle : s.pending = none
  room : HasRoom name s.host.server

/-- A datagram that claims the name, and its handling with nothing in between:
    after a STOP the name is not registered, and after anything else it is. -/
theorem welcome_step (h : Welcome name s) (hid : validate_client_id name = true) {e : Event}
    (he : claimsName name e = true) :
    ∃ t, run step s [e, .dispatch 0 none fun _ => none] = some t ∧ Welcome name t ∧
      (Registered name t.host.server ↔ isStop e = false) := by
  cases e with
  | dispatch now result results => cases he
  | sweep input => cases he
  | receive msg client_addr checked now result =>
      rw [claimsName, Bool.and_eq_true, decide_eq_true_eq] at he
      rcases he with ⟨hvalid, rfl⟩
      have hid' : validate_client_id msg.sender_id.bytes = true := by
        rw [← validate_client_id_cstr]
        exact hid
      have hsound := enroll_preserves kept_registryInv s.host msg client_addr now result h.sound
      by_cases htype : msg.type = MessageType.MSG_STOP.code
      · have hstep := step_receive_valid h.idle hvalid client_addr now result
          (enroll_stop htype).1
        have hstop : isStop (.receive msg client_addr checked now result) = true :=
          decide_eq_true htype
        have hhandled := @dispatch_stop _ msg client_addr hsound htype 0 none fun _ => none
        rcases hhandled with ⟨hgone, hroom⟩
        refine ⟨_, run_cons_eq_some.mpr ⟨_, hstep, rfl⟩, ⟨?_, rfl, hroom ?_⟩,
          iff_of_false hgone (by rw [hstop]; decide)⟩
        · exact dispatch_preserves kept_registryInv _ msg client_addr 0 none _ hsound
        · -- The STOP of somebody who is not known changes nothing.
          cases hfound : find_client_by_id s.host.server msg.sender_id.bytes with
          | none =>
              rw [(enroll_stop htype).2 hfound]
              exact h.room
          | some i =>
              rcases find_client_by_id_some hfound with ⟨hactive, hname⟩
              refine Or.inl ⟨i, ?_, ?_⟩
              all_goals
                unfold enroll
                simp only [hfound, setSlot_self]
                first | exact hactive | exact hname
      · have henrolled := @enroll_registers s.host msg client_addr now result hid' htype h.room
        rcases henrolled with ⟨hreply, hreg⟩
        have hstep := step_receive_valid h.idle hvalid client_addr now result hreply
        have hstop : isStop (.receive msg client_addr checked now result) = false :=
          decide_eq_false htype
        refine ⟨_, run_cons_eq_some.mpr ⟨_, hstep, rfl⟩, ?_⟩
        simp only [dispatch_host htype]
        exact ⟨⟨hsound, rfl, Or.inl hreg⟩, iff_of_true hreg hstop⟩

/-- A client's datagrams one after another. -/
def oneByOne (order : List Event) : List Event :=
  order.flatMap fun e => [e, .dispatch 0 none fun _ => none]

theorem filter_oneByOne {order : List Event} (hall : ∀ e ∈ order, claimsName name e = true) :
    (oneByOne order).filter (claimsName name) = order := by
  induction order with
  | nil => rfl
  | cons e order ih =>
      have hfirst := hall e List.mem_cons_self
      have hrest := ih fun e' he' => hall e' (List.mem_cons_of_mem _ he')
      rw [oneByOne] at hrest
      rw [oneByOne, List.flatMap_cons, List.filter_append, hrest, List.filter_cons_of_pos hfirst]
      rfl

theorem welcome_run (order : List Event) (h : Welcome name s) (hid : validate_client_id name = true)
    (hall : ∀ e ∈ order, claimsName name e = true) :
    ∃ t, run step s (oneByOne order) = some t ∧ Welcome name t := by
  induction order generalizing s with
  | nil => exact ⟨s, rfl, h⟩
  | cons e order ih =>
      rcases welcome_step h hid (hall e List.mem_cons_self) with ⟨u, hfirst, hu, _⟩
      rcases ih hu fun e' he' => hall e' (List.mem_cons_of_mem _ he') with ⟨t, hrest, ht⟩
      refine ⟨t, ?_, ht⟩
      rw [oneByOne, List.flatMap_cons]
      exact run_append_eq_some.mpr ⟨u, hfirst, hrest⟩

/-- A client's messages without a text are acceptable at the moment they are sent. -/
theorem clientMessage_acceptable (client : Client) (type : MessageType) :
    validate_message (clientMessage client type [] [] 0) 0 = true := by
  refine (clientMessage_valid_iff client type [] [] 0 0).mpr ⟨by decide, ?_⟩
  have hordinary : Ordinary 0 := ⟨by decide, by decide⟩
  rw [recent_iff hordinary]
  change (0 : BitVec 64).toInt - 300 ≤ (0 : BitVec 64).toInt
    ∧ (0 : BitVec 64).toInt ≤ (0 : BitVec 64).toInt + 3600
  decide

/-- The other clients can see to it that there is a slot for the name. -/
theorem welcome_of_sound (hsound : RegistryInv s.host.server) (name : List UInt8) :
    ∃ events t, (∀ e ∈ events, claimsName name e = false) ∧ run step s events = some t ∧
      Welcome name t := by
  -- What the main thread has taken in is handled first.
  have hidle : ∃ events u, (∀ e ∈ events, claimsName name e = false) ∧
      run step s events = some u ∧ RegistryInv u.host.server ∧ u.pending = none := by
    cases hpending : s.pending with
    | none => exact ⟨[], s, (fun _ he => by cases he), rfl, hsound, hpending⟩
    | some p =>
        have hstep : step s (.dispatch 0 none fun _ => none) = some
            { host := (dispatch s.host p.1 p.2 0 none fun _ => none).1, pending := none } := by
          rw [step, hpending]
          rfl
        refine ⟨[.dispatch 0 none fun _ => none], _, fun e he => ?_,
          run_cons_eq_some.mpr ⟨_, hstep, rfl⟩,
          step_preserves kept_registryInv s _ _ hsound hstep, rfl⟩
        rw [List.mem_singleton.mp he]
        rfl
  rcases hidle with ⟨events, u, hothers, hrun, hu, hpending⟩
  by_cases hroom : HasRoom name u.host.server
  · exact ⟨events, u, hothers, hrun, hu, hpending, hroom⟩
  · -- The table is full of other clients, and the first of them leaves.
    have hactive : (u.host.server.clients ⟨0, by decide⟩).is_active = true := by
      by_contra hnot
      exact hroom (Or.inr ⟨_, Bool.eq_false_iff.mpr hnot⟩)
    generalize hi : (⟨0, by decide⟩ : Fin MAX_CLIENTS) = i at hactive
    have hother : (u.host.server.clients i).client_id.str ≠ name :=
      fun hname => hroom (Or.inl ⟨i, hactive, hname⟩)
    have hid := hu.valid i hactive
    let client : Client :=
      { server_socket := -1, client_id := (u.host.server.clients i).client_id
        server_ip := CharArray.zero 16, server_port := 0, is_connected := true
        is_running := false }
    have hsender : (client_send_stop client 0).sender_id.str
        = (u.host.server.clients i).client_id.str := by
      have hlen := ((validate_client_id_iff _).mp hid).2.1
      rw [strlen] at hlen
      refine (clientMessage_sender client .MSG_STOP [] [] 0).trans ?_
      exact List.take_of_length_le (Nat.le_sub_one_of_lt hlen)
    have hclaims : claimsName (u.host.server.clients i).client_id.str
        (.receive (client_send_stop client 0) { sin_addr := 0, sin_port := 0 } 0 0 none)
          = true := by
      rw [claimsName, client_send_stop, clientMessage_acceptable, Bool.true_and]
      exact decide_eq_true hsender
    have hwelcome : Welcome (u.host.server.clients i).client_id.str u :=
      ⟨hu, hpending, Or.inl ⟨i, hactive, rfl⟩⟩
    rcases welcome_step hwelcome (by rw [CharArray.str, validate_client_id_cstr]; exact hid) hclaims
      with ⟨t, hleave, ht, hgone⟩
    refine ⟨_, t, ?_, run_append_eq_some.mpr ⟨u, hrun, hleave⟩, ht.sound, ht.idle, ?_⟩
    · intro e he
      rcases List.mem_append.mp he with he | he
      · exact hothers e he
      · rcases List.mem_cons.mp he with rfl | he
        · rw [claimsName, client_send_stop, clientMessage_acceptable, Bool.true_and]
          exact decide_eq_false fun hname => hother (hsender.symm.trans hname)
        · rw [List.mem_singleton.mp he]
          rfl
    · rcases ht.room with hreg | hfree
      · have hstop : isStop (.receive (client_send_stop client 0)
            { sin_addr := 0, sin_port := 0 } 0 0 none) = true :=
          decide_eq_true (rfl : (client_send_stop client 0).type = _)
        rw [hgone.mp hreg] at hstop
        cases hstop
      · exact Or.inr hfree

end Runs

/-- The last datagram of the list is a STOP. -/
def StopLast (order : List Event) : Prop := ∃ e, order.getLast? = some e ∧ isStop e = true

section Last

variable {name : List UInt8} {s s' t : State} {order : List Event}

/-- From the STOP on nobody registers the name. -/
theorem leaving_of_stop (hsound : RegistryInv s.host.server) {e : Event} (hstop : isStop e = true)
    (hclaims : claimsName name e = true) (hstep : step s e = some s') : Leaving name s' := by
  refine ⟨step_preserves kept_registryInv s s' e hsound hstep, ?_⟩
  cases e with
  | dispatch now result results => cases hstop
  | sweep input => cases hstop
  | receive msg client_addr checked now result =>
      rw [claimsName, Bool.and_eq_true, decide_eq_true_eq] at hclaims
      have htype := of_decide_eq_true hstop
      rw [step_receive_valid (step_receive hstep).1 hclaims.1 client_addr now result
        (enroll_stop htype).1, Option.some.injEq] at hstep
      rw [← hstep]
      exact Or.inr ⟨_, rfl, htype, hclaims.2⟩

/-- A STOP that comes last is final. -/
theorem stopIsFinal_of_stopLast (hsound : RegistryInv t.host.server) (hlast : StopLast order) :
    StopIsFinal t name order := by
  rcases hlast with ⟨e, hlast, hstop⟩
  intro events u hfilter hrun hidle
  -- The run up to the STOP, the STOP, and a rest in which nothing claims the name.
  rcases List.getLast?_eq_some_iff.mp hlast with ⟨before, rfl⟩
  rcases List.filter_eq_append_iff.mp hfilter with ⟨first, rest, rfl, _, hrest⟩
  rcases List.filter_eq_cons_iff.mp hrest with ⟨between, after, rfl, _, hclaims, hafter⟩
  rcases run_append_eq_some.mp hrun with ⟨v, hv, hrun⟩
  rcases run_append_eq_some.mp hrun with ⟨w, hw, hrun⟩
  rcases run_cons_eq_some.mp hrun with ⟨x, hstep, hrun⟩
  have hsoundw : RegistryInv w.host.server :=
    ((reachable_of_run hv).trans (reachable_of_run hw)).invariant hsound
      fun s e s' h _ hstep => step_preserves kept_registryInv s s' e h hstep
  have hend := leaving_run after (leaving_of_stop hsoundw hstop hclaims hstep)
    (fun e he => Bool.eq_false_iff.mpr (List.filter_eq_nil_iff.mp hafter e he)) hrun
  rcases hend.gone with hgone | ⟨p, hp, _⟩
  · exact hgone
  · rw [hidle] at hp
    cases hp

/-- Where another datagram comes last, it registers the client in a run in which
    there is a slot to be had and all are handled one after another. -/
theorem stopLast_of_stopIsFinal (hsound : RegistryInv t.host.server)
    (hid : validate_client_id name = true) (hall : ∀ e ∈ order, claimsName name e = true)
    (hne : order ≠ []) (hfinal : StopIsFinal t name order) : StopLast order := by
  refine ⟨order.getLast hne, List.getLast?_eq_some_getLast hne, ?_⟩
  by_contra hnot
  rcases List.getLast?_eq_some_iff.mp (List.getLast?_eq_some_getLast hne) with ⟨before, horder⟩
  generalize order.getLast hne = e at hnot horder
  subst horder
  rcases welcome_of_sound hsound name with ⟨events, u, hothers, hrun, hu⟩
  rcases welcome_run before hu hid fun e he => hall e (List.mem_append_left _ he) with
    ⟨v, hfirst, hv⟩
  rcases welcome_step hv hid (hall e (by simp)) with ⟨w, hlaststep, hw, hreg⟩
  refine hfinal (events ++ oneByOne (before ++ [e])) w ?_ ?_ hw.idle
    (hreg.mpr (Bool.eq_false_iff.mpr hnot))
  · rw [List.filter_append, filter_oneByOne hall,
      List.filter_eq_nil_iff.mpr fun e he => by rw [hothers e he]; decide]
    rfl
  · refine run_append_eq_some.mpr ⟨u, hrun, ?_⟩
    rw [oneByOne, List.flatMap_append]
    exact run_append_eq_some.mpr ⟨v, hfirst, hlaststep⟩

end Last

/-- In every state the server reaches, and for any acceptable datagrams of a
    client in any order, with a STOP among them: the client is gone when they
    have all been handled, whatever else has happened meanwhile, exactly when
    the STOP comes last. -/
theorem stopIsFinal_iff (port : Int) (fd : Nat) (others : Int → Bool) (s t : State)
    (hstart : start port fd others = some s) (hreach : Reachable step s t)
    (client_id server_ip : List UInt8) (server_port : Int) (locks : Bool) (client : Client)
    (hinit : client_init client_id server_ip server_port locks = some client)
    (order : List Event) (horder : ∀ e ∈ order, FromClient client e)
    (hstop : ∃ e ∈ order, isStop e = true) :
    StopIsFinal t (cstr client_id) order ↔ StopLast order := by
  have hsound := (current_of_reaches hstart hreach).sound
  have hall : ∀ e ∈ order, claimsName (cstr client_id) e = true :=
    fun e he => claims_fromClient hinit (horder e he)
  rcases hstop with ⟨e, he, _⟩
  exact ⟨stopLast_of_stopIsFinal hsound (valid_of_init hinit) hall (List.ne_nil_of_mem he),
    stopIsFinal_of_stopLast hsound⟩

/-- The datagram of a client arrives as soon as it is sent. -/
def arrives (msg : Message) : Event := .receive msg { sin_addr := 1, sin_port := 2 } 0 0 none

theorem fromClient_arrives {client : Client} {msg : Message} (h : Sends client msg)
    (hvalid : validate_message msg 0 = true) : FromClient client (arrives msg) := ⟨h, hvalid⟩

/-- A registered client asks for the list, answers a keepalive message and
    leaves, in this order. -/
theorem stopIsFinal_iff_run :
    ∃ s t client, start 5000 3 (fun _ => false) = some s ∧
      run step s (claims .MSG_LIST "ann" { sin_addr := 1, sin_port := 2 }) = some t ∧
      client_init (bytes "ann") (bytes "127.0.0.1") 5000 true = some client ∧
      StopIsFinal t (cstr (bytes "ann"))
        [arrives (client_send_list_request client 0),
          arrives (client_send_alive_response client 0),
          arrives (client_send_stop client 0)] := by
  have hsome : ((start 5000 3 fun _ => false).bind fun s =>
      run step s (claims .MSG_LIST "ann" { sin_addr := 1, sin_port := 2 })).isSome = true ∧
      (client_init (bytes "ann") (bytes "127.0.0.1") 5000 true).isSome = true := by decide +kernel
  rcases Option.isSome_iff_exists.mp hsome.1 with ⟨t, hbind⟩
  rcases Option.bind_eq_some_iff.mp hbind with ⟨s, hstart, hrun⟩
  rcases Option.isSome_iff_exists.mp hsome.2 with ⟨client, hinit⟩
  have hstop : isStop (arrives (client_send_stop client 0)) = true :=
    decide_eq_true (rfl : (client_send_stop client 0).type = _)
  refine ⟨s, t, client, hstart, hrun, hinit,
    (stopIsFinal_iff 5000 3 _ s t hstart (reachable_of_run hrun) _ _ _ _ client hinit _ ?_
      ⟨_, by simp, hstop⟩).mpr ⟨_, rfl, hstop⟩⟩
  have hsent : ∀ type, validate_message (clientMessage client type [] [] 0) 0 = true :=
    clientMessage_acceptable client
  intro e he
  simp only [List.mem_cons, List.not_mem_nil, or_false] at he
  rcases he with rfl | rfl | rfl
  · exact fromClient_arrives (.list_request 0) (hsent .MSG_LIST)
  · exact fromClient_arrives (.alive_response 0) (hsent .MSG_ALIVE_RESPONSE)
  · exact fromClient_arrives (.stop 0) (hsent .MSG_STOP)

/-- The receive thread of a client answers a keepalive message after the STOP
    has been sent, and the answer registers the client again. -/
theorem answer_after_stop :
    ¬ ∀ (s t : State) (client : Client) (order : List Event),
      start 5000 3 (fun _ => false) = some s → Reachable step s t →
      client_init (bytes "ann") (bytes "127.0.0.1") 5000 true = some client →
      (∀ e ∈ order, FromClient client e) → (∃ e ∈ order, isStop e = true) →
      StopIsFinal t (bytes "ann") order := by
  intro hclaim
  have hend : ((start 5000 3 fun _ => false).bind fun s =>
      run step s (claims .MSG_LIST "ann" { sin_addr := 1, sin_port := 2 })).bind (fun t =>
        (client_init (bytes "ann") (bytes "127.0.0.1") 5000 true).bind fun client =>
          let order := [arrives (client_send_stop client 0),
            arrives (client_send_alive_response client 0)]
          (run step t (oneByOne order)).map fun u =>
            (u.pending.isNone, decide (Registered (bytes "ann") u.host.server)))
        = some (true, true) := by decide +kernel
  rcases Option.bind_eq_some_iff.mp hend with ⟨t, hbind, hrest⟩
  rcases Option.bind_eq_some_iff.mp hbind with ⟨s, hstart, hrun⟩
  rcases Option.bind_eq_some_iff.mp hrest with ⟨client, hinit, hrest⟩
  rcases Option.map_eq_some_iff.mp hrest with ⟨u, hanswered, hpair⟩
  rcases Prod.mk.inj hpair with ⟨hidle, hregistered⟩
  have hsent : ∀ type, validate_message (clientMessage client type [] [] 0) 0 = true :=
    clientMessage_acceptable client
  have hfrom : ∀ e ∈ [arrives (client_send_stop client 0),
      arrives (client_send_alive_response client 0)], FromClient client e := by
    intro e he
    simp only [List.mem_cons, List.not_mem_nil, or_false] at he
    rcases he with rfl | rfl
    · exact fromClient_arrives (.stop 0) (hsent .MSG_STOP)
    · exact fromClient_arrives (.alive_response 0) (hsent .MSG_ALIVE_RESPONSE)
  exact hclaim s t client _ hstart (reachable_of_run hrun) hinit hfrom
    ⟨_, List.mem_cons_self, decide_eq_true (rfl : (client_send_stop client 0).type = _)⟩ _ u
    (filter_oneByOne fun e he => claims_fromClient hinit (hfrom e he)) hanswered
    (Option.isNone_iff_eq_none.mp hidle) (of_decide_eq_true hregistered)

end Lab11

end OsLabs
