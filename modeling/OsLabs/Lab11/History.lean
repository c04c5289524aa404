import OsLabs.Lab11.Descriptor
import OsLabs.Lab11.Identity

/-!
# What the Server Has Heard

The registry of the UDP server remembers of each client where its last datagram
has come from, when that was, and how many sweeps have found it silent since.
Here that is compared with what has happened: a log is kept beside the run, of
the acceptable datagrams the server has taken in and of its sweeps, the newest
first.

A slot that is filled again gets the name of its new client with that client's
first datagram, so the log need not know about slots: an active slot agrees with
the log under the name it has. A step changes the slots of one name at most, but
for a sweep, which judges each slot by itself.

## Main definitions

* `Entry`, `entry`: What a step adds to the log.
* `logged`: The system with its log.
* `lastHeard`, `silentSweeps`: What the log tells about a name.
* `Agrees`: A slot has of its client what the log tells.
* `Judged`: What a sweep does with one slot.
* `Chronicle`: The registry agrees with the log.

## Theorems

* `enroll_slots`: Taking in a datagram is hearing from its sender and from
  nobody else.
* `sweep_judges`: A sweep judges every slot by itself.
* `chronicle_step`: A step keeps the agreement.
* `chronicle_of_reaches`: The registry agrees with the log in every state
  reached.
* `logged_of_reachable`: Every run has a log.
-/

namespace OsLabs

namespace Lab11

open Chat

/-- What the log keeps of a step. -/
inductive Entry
  /-- An acceptable datagram in this name, its source, and the time noted. -/
  | heard (id : List UInt8) (client_addr : SockAddrIn) (now : TimeT)
  /-- A sweep that has compared with this time. -/
  | swept (now : TimeT)
  deriving DecidableEq

def entry : Event → List Entry
  | .receive msg client_addr checked now _ =>
    if validate_message msg checked then [.heard msg.sender_id.str client_addr now] else []
  | .dispatch _ _ _ => []
  | .sweep input => [.swept input.now]

/-- The system with its log, the newest entry first. -/
def logged (l : State × List Entry) (e : Event) : Option (State × List Entry) :=
  (step l.1 e).map fun s => (s, entry e ++ l.2)

/-- Source and time of the last datagram in this name. -/
def lastHeard (id : List UInt8) : List Entry → Option (SockAddrIn × TimeT)
  | [] => none
  | .heard name client_addr now :: log =>
    if name = id then some (client_addr, now) else lastHeard id log
  | .swept _ :: log => lastHeard id log

/-- At this time the name has not been heard for longer than the keepalive
    interval. -/
def silentAt (now : TimeT) (id : List UInt8) (log : List Entry) : Bool :=
  (lastHeard id log).elim false fun last => now.toInt - last.2.toInt > KEEPALIVE_INTERVAL

/-- The number of sweeps since the last datagram in this name at which it had not
    been heard for longer than the keepalive interval. -/
def silentSweeps (id : List UInt8) : List Entry → Nat
  | [] => 0
  | .heard name _ _ :: log => if name = id then 0 else silentSweeps id log
  | .swept now :: log => silentSweeps id log + (silentAt now id log).toNat

/-- The slot has of its client what the log tells about its name. -/
def Agrees (log : List Entry) (c : ServerClient) : Prop :=
  c.is_active = true → lastHeard c.client_id.str log = some (c.addr, c.last_seen) ∧
    c.inactive_count = silentSweeps c.client_id.str log

section Taking

variable {host : Host} {msg : Message} {client_addr : SockAddrIn} {now : TimeT}
  {result : Option Nat}

/-- The slot is what hearing from the sender has left, or it is as it was and has
    another name. -/
def HeardOnly (host : Host) (msg : Message) (client_addr : SockAddrIn) (now : TimeT)
    (server : Server) (i : Fin MAX_CLIENTS) : Prop :=
  (∃ c, server.clients i = heard c client_addr now ∧ c.client_id.str = msg.sender_id.str) ∨
    server.clients i = host.server.clients i ∧
      (host.server.clients i).client_id.str ≠ msg.sender_id.str

/-- One slot is written for the sender, and no other has its name. -/
theorem heardOnly_write {server : Server} {j : Fin MAX_CLIENTS} {c : ServerClient}
    (hclients : server.clients = Function.update host.server.clients j (heard c client_addr now))
    (hname : c.client_id.str = msg.sender_id.str)
    (hother : ∀ i, i ≠ j → (host.server.clients i).is_active = true →
      (host.server.clients i).client_id.str ≠ msg.sender_id.str) (i : Fin MAX_CLIENTS)
    (hactive : (server.clients i).is_active = true) :
    HeardOnly host msg client_addr now server i := by
  by_cases hij : i = j
  · refine Or.inl ⟨c, ?_, hname⟩
    rw [hclients, hij, Function.update_self]
  · have hsame : server.clients i = host.server.clients i := by
      rw [hclients, Function.update_of_ne hij]
    rw [hsame] at hactive
    exact Or.inr ⟨hsame, hother i hij hactive⟩

/-- Taking in a datagram is hearing from its sender and from nobody else. -/
theorem enroll_slots (hinv : RegistryInv host.server) (i : Fin MAX_CLIENTS)
    (hactive : ((enroll host msg client_addr now result).1.server.clients i).is_active = true) :
    HeardOnly host msg client_addr now (enroll host msg client_addr now result).1.server i := by
  unfold enroll at hactive ⊢
  cases hfound : find_client_by_id host.server msg.sender_id.bytes with
  | some j =>
      rcases find_client_by_id_some hfound with ⟨hj, hname⟩
      simp only [hfound] at hactive ⊢
      -- A second slot with this name would be the same one.
      refine heardOnly_write rfl hname (fun k hkj hk hkname => ?_) i hactive
      exact hkj (hinv.distinct k j hk hj (hkname.trans hname.symm))
  | none =>
      have hnone := find_client_by_id_none.mp hfound
      simp only [hfound] at hactive ⊢
      split_ifs at hactive ⊢ with hstop hvalid
      · exact Or.inr ⟨rfl, hnone i hactive⟩
      · exact Or.inr ⟨rfl, hnone i hactive⟩
      · unfold add_client_udp fillSlot at hactive ⊢
        cases hfree : freeSlot host.server with
        | none =>
            simp only [hfree] at hactive ⊢
            exact Or.inr ⟨rfl, hnone i hactive⟩
        | some j =>
            simp only [hfree, Server.setSlot, Function.update_self, Function.update_idem]
              at hactive ⊢
            have hfilled := filled_name (host.server.clients j) host.server.server_socket
              client_addr now (by simpa using hvalid)
            exact heardOnly_write rfl hfilled (fun k _ hk => hnone k hk) i hactive

end Taking

section Judging

/-- A request of the keepalive thread to the client of the slot. -/
structure Reminds (c : ServerClient) (d : Datagram) : Prop where
  type : d.message.type = MessageType.MSG_ALIVE.code
  recipient : d.message.recipient_id.str = c.client_id.str.take (MAX_CLIENT_NAME - 1)
  dest : d.dest = c.addr

theorem reminds_alive (open_fds : Int → Bool) (socketfd : Int) (c : ServerClient) (now : TimeT)
    (result : Option Nat) :
    Reminds c (send_message_protocol open_fds socketfd
      (create_message .MSG_ALIVE serverName c.client_id.bytes [] now) c.addr result) :=
  ⟨rfl, create_message_recipient _ _ _ _ _, rfl⟩

/-- What a sweep does with one slot: the slot before and after it, and what is
    sent for it. -/
inductive Judged (input : SweepInput) (c : ServerClient) :
    ServerClient → List Datagram → Prop
  | absent (hactive : c.is_active = false) : Judged input c c []
  | present (hactive : c.is_active = true) (hheard : silent input.now c = false) :
      Judged input c c []
  /-- It has been silent too often. -/
  | timeout (hactive : c.is_active = true) (hsilent : silent input.now c = true)
      (hcount : (missed c).inactive_count ≥ MAX_INACTIVE_COUNT) (c' : ServerClient)
      (hgone : c'.is_active = false) : Judged input c c' []
  | reminded (hactive : c.is_active = true) (hsilent : silent input.now c = true)
      (hcount : (missed c).inactive_count < MAX_INACTIVE_COUNT) (d : Datagram)
      (hreminds : Reminds c d) (hsent : ¬ d.result ≤ 0) : Judged input c (missed c) [d]
  /-- The request could not be sent. -/
  | unreachable (hactive : c.is_active = true) (hsilent : silent input.now c = true)
      (hcount : (missed c).inactive_count < MAX_INACTIVE_COUNT) (d : Datagram)
      (hreminds : Reminds c d) (hfailed : d.result ≤ 0) (c' : ServerClient)
      (hgone : c'.is_active = false) : Judged input c c' [d]

/-- A visit of the sweep judges the slot it is at. -/
theorem sweepSlot_judges (input : SweepInput) (acc : Host × List Datagram) (i : Fin MAX_CLIENTS) :
    ∃ given, (sweepSlot input acc i).2 = acc.2 ++ given ∧
      Judged input (acc.1.server.clients i) ((sweepSlot input acc i).1.server.clients i) given := by
  have hremoved : ∀ host : Host, ((host.remove_client i).server.clients i).is_active = false :=
    fun host => remove_client_inactive host.server i
  unfold sweepSlot
  simp only []
  by_cases hactive : (acc.1.server.clients i).is_active = true
  · rw [if_neg (by rw [hactive]; decide)]
    split_ifs with hsilent hcount hresult
    · exact ⟨[], (List.append_nil _).symm, Judged.timeout hactive hsilent hcount _ (hremoved _)⟩
    · have hlow := Int.lt_of_not_ge hcount
      refine ⟨_, rfl, ?_⟩
      exact Judged.unreachable hactive hsilent hlow _ (reminds_alive _ _ _ _ _) hresult _
        (hremoved _)
    · have hlow := Int.lt_of_not_ge hcount
      refine ⟨_, rfl, ?_⟩
      simp only [setSlot_self]
      exact Judged.reminded hactive hsilent hlow _ (reminds_alive _ _ _ _ _) hresult
    · exact ⟨[], (List.append_nil _).symm, Judged.present hactive (Bool.eq_false_iff.mpr hsilent)⟩
  · have hinactive := Bool.eq_false_iff.mpr hactive
    rw [if_pos (by rw [hinactive]; rfl)]
    exact ⟨[], (List.append_nil _).symm, Judged.absent hinactive⟩

/-- A sweep judges every slot by itself, and sends what it sends for each, in the
    order of the slots. -/
theorem sweep_judges (input : SweepInput) (host : Host) :
    ∃ alive : Fin MAX_CLIENTS → List Datagram,
      (sweep input host).2 = (List.finRange MAX_CLIENTS).flatMap alive ∧
      ∀ i, Judged input (host.server.clients i) ((sweep input host).1.server.clients i)
        (alive i) := by
  have hvisits := foldl_visits (fun acc i => acc.1.server.clients i) (fun acc => acc.2)
    (fun _ => Judged input) (fun acc i => sweepSlot_judges input acc i)
    (fun acc i j hj => sweepSlot_other input acc hj) _ (List.nodup_finRange MAX_CLIENTS) (host, [])
  rw [sweep]
  -- What the fold computes is of no interest from here on.
  generalize (List.finRange MAX_CLIENTS).foldl (sweepSlot input) (host, []) = swept at hvisits ⊢
  rcases hvisits with ⟨alive, hsent, hall, _⟩
  exact ⟨alive, hsent, fun i => hall i (List.mem_finRange i)⟩

end Judging

section Agreement

variable {log : List Entry} {c c' : ServerClient}

/-- The clock of a slot is that of the log. -/
theorem silentAt_eq (h : Agrees log c) (hactive : c.is_active = true) (now : TimeT) :
    silentAt now c.client_id.str log = silent now c := by
  rw [silentAt, (h hactive).1]
  rfl

/-- Who has just been heard agrees with the log. -/
theorem agrees_heard (c : ServerClient) (client_addr : SockAddrIn) (now : TimeT) {id : List UInt8}
    (hname : c.client_id.str = id) :
    Agrees (.heard id client_addr now :: log) (heard c client_addr now) := by
  intro _
  change lastHeard c.client_id.str _ = _ ∧ (0 : Int) = silentSweeps c.client_id.str _
  rw [lastHeard, silentSweeps, if_pos hname.symm, if_pos hname.symm]
  exact ⟨rfl, rfl⟩

/-- What is heard from somebody else does not matter. -/
theorem agrees_other (h : Agrees log c) (client_addr : SockAddrIn) (now : TimeT) {id : List UInt8}
    (hname : c.client_id.str ≠ id) : Agrees (.heard id client_addr now :: log) c := by
  intro hactive
  rw [lastHeard, silentSweeps, if_neg (Ne.symm hname), if_neg (Ne.symm hname)]
  exact h hactive

/-- A sweep leaves a slot as the log then tells. -/
theorem agrees_judged (h : Agrees log c) {input : SweepInput} {alive : List Datagram}
    (hjudged : Judged input c c' alive) : Agrees (.swept input.now :: log) c' := by
  intro hactive'
  cases hjudged with
  | absent hactive =>
      rw [hactive] at hactive'
      cases hactive'
  | present hactive hheard =>
      rw [lastHeard, silentSweeps, silentAt_eq h hactive, hheard]
      exact h hactive
  | timeout _ _ _ _ hgone =>
      rw [hgone] at hactive'
      cases hactive'
  | reminded hactive hsilent =>
      have hid : (missed c).client_id.str = c.client_id.str := rfl
      rcases h hactive with ⟨hlast, hcount⟩
      rw [hid, lastHeard, silentSweeps, silentAt_eq h hactive, hsilent]
      refine ⟨hlast, ?_⟩
      change c.inactive_count + 1 = _
      rw [hcount]
      rfl
  | unreachable _ _ _ _ _ _ _ hgone =>
      rw [hgone] at hactive'
      cases hactive'

end Agreement

/-- The registry is sound and agrees with the log, and what is about to be
    handled has been accepted. -/
structure Chronicle (l : State × List Entry) : Prop where
  sound : RegistryInv l.1.host.server
  agrees : ∀ i, Agrees l.2 (l.1.host.server.clients i)
  accepted : ∀ p, l.1.pending = some p → ∃ checked, validate_message p.1 checked = true

section Chronicles

variable {l l' : State × List Entry}

/-- A handler changes no slot that stays active. -/
theorem dispatch_slots (host : Host) (msg : Message) (client_addr : SockAddrIn) (now : TimeT)
    (result : Option Nat) (results : Fin MAX_CLIENTS → Option Nat) (i : Fin MAX_CLIENTS)
    (hactive : ((dispatch host msg client_addr now result results).1.server.clients i).is_active
      = true) :
    (dispatch host msg client_addr now result results).1.server.clients i
      = host.server.clients i := by
  unfold dispatch at hactive ⊢
  split_ifs at hactive ⊢ with hlist hall hone hstop
  · rfl
  · rfl
  · rfl
  · unfold handle_stop_request_udp at hactive ⊢
    cases hfound : find_client_by_id host.server msg.sender_id.bytes with
    | none => rfl
    | some j =>
        simp only [hfound] at hactive ⊢
        by_cases hij : i = j
        · -- The slot of the sender is the one that does not stay active.
          have hgone := remove_client_inactive host.server j
          rw [hij] at hactive
          exact absurd (hactive.symm.trans hgone) (by decide)
        · exact remove_client_other host.server hij
  · rfl

theorem chronicle_step (h : Chronicle l) {e : Event} (hstep : logged l e = some l') :
    Chronicle l' := by
  rcases Option.map_eq_some_iff.mp hstep with ⟨s, hs, rfl⟩
  refine ⟨step_preserves kept_registryInv l.1 s e h.sound hs, ?_, ?_⟩
  · intro i
    cases e with
    | receive msg client_addr checked now result =>
        rcases step_receive hs with ⟨_, ⟨hinvalid, rfl⟩ | ⟨hvalid, hhost, _⟩⟩
        · simp only [entry, hinvalid, Bool.false_eq_true, if_false, List.nil_append]
          exact h.agrees i
        · simp only [entry, hvalid, if_true, List.singleton_append, hhost]
          intro hactive
          rcases enroll_slots h.sound i hactive with ⟨c, hc, hname⟩ | ⟨hsame, hname⟩
          · rw [hc] at hactive ⊢
            exact agrees_heard c client_addr now hname hactive
          · rw [hsame] at hactive ⊢
            exact agrees_other (h.agrees i) client_addr now hname hactive
    | dispatch now result results =>
        rcases Option.map_eq_some_iff.mp hs with ⟨p, _, rfl⟩
        intro hactive
        have hsame := dispatch_slots l.1.host p.1 p.2 now result results i hactive
        simp only [entry, List.nil_append]
        rw [hsame] at hactive ⊢
        exact h.agrees i hactive
    | sweep input =>
        rcases sweep_judges input l.1.host with ⟨alive, _, hall⟩
        rw [step, Option.some.injEq] at hs
        subst hs
        generalize sweep input l.1.host = result at hall ⊢
        exact agrees_judged (h.agrees i) (hall i)
  · intro p hp
    cases e with
    | receive msg client_addr checked now result =>
        rcases step_receive hs with ⟨hidle, ⟨_, rfl⟩ | ⟨hvalid, _, hnone | ⟨hsome, _⟩⟩⟩
        · rw [hidle] at hp
          cases hp
        · rw [hnone] at hp
          cases hp
        · rw [hsome] at hp
          cases hp
          exact ⟨checked, hvalid⟩
    | dispatch now result results =>
        rcases Option.map_eq_some_iff.mp hs with ⟨q, _, rfl⟩
        cases hp
    | sweep input =>
        rw [step, Option.some.injEq] at hs
        rw [← hs] at hp
        exact h.accepted p hp

theorem start_inactive {port : Int} {fd : Nat} {others : Int → Bool} {s : State}
    (h : start port fd others = some s) (i : Fin MAX_CLIENTS) :
    (s.host.server.clients i).is_active = false := by
  rcases Option.map_eq_some_iff.mp h with ⟨server, hinit, rfl⟩
  obtain rfl := server_init_some hinit
  rfl

/-- In every state reached from the start of the server the registry agrees with
    the log. -/
theorem chronicle_of_reaches {port : Int} {fd : Nat} {others : Int → Bool} {s : State}
    (hstart : start port fd others = some s) (hreach : Reachable logged (s, []) l) :
    Chronicle l := by
  refine hreach.invariant ⟨registryInv_start hstart, ?_, ?_⟩
    fun _ _ _ h _ hstep => chronicle_step h hstep
  · -- Nobody is registered at the start, so there is nothing to agree on.
    intro i hactive
    exact absurd hactive (Bool.eq_false_iff.mp (start_inactive hstart i))
  · rcases Option.map_eq_some_iff.mp hstart with ⟨server, _, rfl⟩
    intro p hp
    cases hp

/-- Every run of the server has a log. -/
theorem logged_of_reachable {s t : State} (hreach : Reachable step s t) :
    ∃ log, Reachable logged (s, []) (t, log) := by
  induction hreach with
  | refl => exact ⟨[], Reaches.refl⟩
  | step v w e _ _ hstep ih =>
      rcases ih with ⟨log, hlog⟩
      refine ⟨entry e ++ log, Reaches.step (v, log) _ e hlog trivial ?_⟩
      rw [logged, hstep, Option.map_some]

end Chronicles

end Lab11

end OsLabs
