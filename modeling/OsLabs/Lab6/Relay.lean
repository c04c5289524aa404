import OsLabs.Lab6.FanOut

/-!
# A Line on Its Way

A line of input is formatted by the client that reads it, taken apart by the
server, and formatted again for the others. Two things happen to it on the way.
The blank between the directives of the server's `sscanf` skips all the white
space that comes before the text, not only the one blank the client has put
there. And the text gets longer: `MSG 3 ` is six bytes and `From 3: ` is eight,
so a line may fit the queue of the server and be too long for those of the
clients.

Besides, a line with a zero byte in it ends there for all functions on strings.
All other lines arrive as they were typed.

## Main definitions

* `Roomy`: A call of `mq_send` for a queue that has room.
* `Relays`: The line is sent to every other client, once.
* `Plain`: The lines that arrive as they are.

## Theorems

* `client_line_sent`: What the client sends.
* `scanMsg_sent`: What the server finds in it.
* `relay_verbatim_iff`: Which lines are sent on verbatim.
* `indented_line_changed`: A line that is not.
-/

namespace OsLabs

namespace Lab6

/-- The calls of `mq_send` for the other clients meet queues that have room:
    they fail only for messages that are too long. -/
def Roomy (s : State) (i : Fin MAX_CLIENTS) (o : Outcome) : Prop :=
  ∀ j, (s.clients j).active = true → j ≠ i →
    o.mq_send j = fun text => decide (text.length ≤ MSG_SIZE)

/-- The line of client `i` is sent to each other active client once and with
    success, and to nobody else. -/
def Relays (s s' : State) (i : Fin MAX_CLIENTS) (line : List UInt8) : Prop :=
  ∃ new, s'.broadcasts = s.broadcasts ++ new ∧
    ∀ j, new.filter (fun d => d.slot = j) =
      if (s.clients j).active ∧ j ≠ i then
        [{ slot := j, mqd := (s.clients j).mqd
           text := bytes "From " ++ intNumeral i ++ bytes ": " ++ line, ok := true }]
      else []

/-- The line has no zero byte, does not begin with white space and leaves room
    for the eight bytes put before it. -/
def Plain (line : List UInt8) : Prop :=
  (∀ b ∈ line, b ≠ 0) ∧ line.head?.any isBlank = false ∧ 8 + line.length ≤ MSG_SIZE

section Hops

variable {i : Fin MAX_CLIENTS} {input out : List UInt8}

theorem intNumeral_slot (i : Fin MAX_CLIENTS) : intNumeral i = numeral i := by
  rw [intNumeral, if_neg (by omega)]
  rfl

theorem length_numeral_slot (i : Fin MAX_CLIENTS) : (numeral i).length = 1 := by
  revert i
  decide +kernel

/-- A message that the queue of the server takes is not cut short. -/
theorem client_line_sent (hout : client_line i input = some out) (hsent : out.length ≤ MSG_SIZE) :
    out = bytes "MSG " ++ numeral i ++ bytes " " ++ cstr (lineOf input) := by
  unfold client_line at hout
  simp only [] at hout
  split_ifs at hout
  rw [Option.some.injEq, intNumeral_slot, snprintf] at hout
  rw [← hout]
  refine List.take_of_length_le ?_
  rw [← hout, List.length_take] at hsent
  have hsize : MSG_SIZE = 1024 := rfl
  omega

/-- The text the server finds in the message: the line without the white space
    it begins with. -/
def textOf (input : List UInt8) : List UInt8 := (cstr (lineOf input)).dropWhile isBlank

theorem mem_textOf {b : UInt8} (h : b ∈ textOf input) : b ≠ 0 ∧ b ≠ 10 := by
  have hmem : b ∈ cstr (lineOf input) := (List.dropWhile_suffix _).subset h
  have hline : b ∈ lineOf input := (List.takeWhile_prefix _).subset hmem
  have hnewline := List.mem_takeWhile_imp hline
  exact ⟨cstr_no_zero _ b hmem, of_decide_eq_true hnewline⟩

theorem length_textOf (hout : client_line i input = some out) (hsent : out.length ≤ MSG_SIZE) :
    6 + (textOf input).length ≤ MSG_SIZE := by
  have hdrop : (textOf input).length ≤ (cstr (lineOf input)).length := List.length_dropWhile_le _ _
  have hmsg : (bytes "MSG ").length = 4 := rfl
  have hblank : (bytes " ").length = 1 := rfl
  rw [client_line_sent hout hsent, List.length_append, List.length_append, List.length_append,
    length_numeral_slot] at hsent
  omega

/-- The server reads the client's number and the text. -/
theorem scanMsg_sent (hout : client_line i input = some out) (hsent : out.length ≤ MSG_SIZE)
    (overflowed : Int) :
    scanMsg overflowed out = if textOf input = [] then none else some ((i : Int), textOf input) := by
  have hint : scanInt overflowed (intNumeral i ++ (32 :: cstr (lineOf input)))
      = some ((i : Int), 32 :: cstr (lineOf input)) :=
    scanInt_intNumeral overflowed ⟨by omega, by have := i.isLt; have : MAX_CLIENTS = 10 := rfl; omega⟩
      rfl
  have hdrop : out.drop 4 = intNumeral i ++ (32 :: cstr (lineOf input)) := by
    rw [client_line_sent hout hsent, intNumeral_slot, List.append_assoc, List.append_assoc]
    rfl
  have hblank : (32 :: cstr (lineOf input)).dropWhile isBlank = textOf input := rfl
  have hline : (textOf input).takeWhile (· ≠ 10) = textOf input :=
    List.takeWhile_eq_self_iff.mpr fun b hb => decide_eq_true (mem_textOf hb).2
  have hlen := length_textOf hout hsent
  have htake : (textOf input).take (MSG_SIZE - 1) = textOf input :=
    List.take_of_length_le (by omega)
  rw [scanMsg, hdrop, hint, Option.bind_some]
  simp only [hblank, scanLine, hline, htake]
  split_ifs <;> rfl

/-- What the server makes of the message. -/
theorem handle_sent (s : State) (hout : client_line i input = some out)
    (hsent : out.length ≤ MSG_SIZE) (o : Outcome) :
    handle s out o = if textOf input = [] then s else
      { s with broadcasts := s.broadcasts ++ broadcast s i (textOf input) o } := by
  have hout' := client_line_sent hout hsent
  have hzero : cstr out = out := by
    refine cstr_of_no_zero fun b hb => ?_
    rw [hout'] at hb
    rcases List.mem_append.mp hb with hpre | hbuf
    · rcases List.mem_append.mp hpre with hpre | hblank
      · rcases List.mem_append.mp hpre with hmsg | hdigit
        · exact (by decide +kernel : ∀ b ∈ bytes "MSG ", b ≠ 0) b hmsg
        · rintro rfl
          exact absurd (isDecimal_numeral _ _ hdigit) (by decide)
      · exact (by decide +kernel : ∀ b ∈ bytes " ", b ≠ 0) b hblank
    · exact cstr_no_zero _ b hbuf
  have hinit : ¬ (bytes "INIT ").isPrefixOf out = true := by
    rw [hout', List.append_assoc, List.append_assoc]
    exact Bool.false_ne_true
  have hmsg : (bytes "MSG ").isPrefixOf out = true := by
    rw [hout', List.append_assoc, List.append_assoc]
    rfl
  rw [handle, hzero, if_neg hinit, if_pos hmsg, handle_MSG, scanMsg_sent hout hsent]
  split_ifs <;> rfl

theorem fromText_slot (i : Fin MAX_CLIENTS) {text : List UInt8} (hlen : 6 + text.length ≤ MSG_SIZE) :
    fromText i text = bytes "From " ++ intNumeral i ++ bytes ": " ++ text := by
  have hfrom : (bytes "From ").length = 5 := rfl
  have hcolon : (bytes ": ").length = 2 := rfl
  rw [fromText, snprintf]
  refine List.take_of_length_le ?_
  rw [List.length_append, List.length_append, List.length_append, intNumeral_slot,
    length_numeral_slot]
  omega

theorem length_from (i : Fin MAX_CLIENTS) (line : List UInt8) :
    (bytes "From " ++ intNumeral i ++ bytes ": " ++ line).length = 8 + line.length := by
  have hfrom : (bytes "From ").length = 5 := rfl
  have hcolon : (bytes ": ").length = 2 := rfl
  rw [List.length_append, List.length_append, List.length_append, intNumeral_slot,
    length_numeral_slot]
  omega

/-- The text is the line itself exactly if the line is a string that does not
    begin with white space. -/
theorem textOf_eq_iff (input : List UInt8) :
    textOf input = lineOf input ↔
      (∀ b ∈ lineOf input, b ≠ 0) ∧ (lineOf input).head?.any isBlank = false := by
  constructor
  · intro h
    refine ⟨fun b hb => (mem_textOf (h.symm ▸ hb)).1, ?_⟩
    cases hline : lineOf input with
    | nil => rfl
    | cons b line =>
        rw [hline, textOf] at h
        -- What is left after the white space is skipped does not begin with any.
        have hne : (cstr (lineOf input)).dropWhile isBlank ≠ [] := h ▸ List.cons_ne_nil b line
        have hhead := List.head_dropWhile_not isBlank hne
        simp only [h, List.head_cons] at hhead
        exact hhead
  · rintro ⟨hzero, hblank⟩
    rw [textOf, cstr_of_no_zero hzero]
    cases hline : lineOf input with
    | nil => rfl
    | cons b line =>
        rw [hline] at hblank
        exact dropWhile_of_head rfl hblank

theorem val_ne {i j : Fin MAX_CLIENTS} : (j : Int) ≠ i ↔ j ≠ i :=
  not_congr (Int.ofNat_inj.trans Fin.ext_iff.symm)

variable {s : State} {o : Outcome}

/-- Where the line arrives at somebody, it is plain. -/
theorem plain_of_relays (hroom : Roomy s i o) (hout : client_line i input = some out)
    (hsent : out.length ≤ MSG_SIZE) (h : Relays s (handle s out o) i (lineOf input))
    {j : Fin MAX_CLIENTS} (hactive : (s.clients j).active = true) (hj : j ≠ i) :
    Plain (lineOf input) := by
  rcases h with ⟨new, hnew, hslots⟩
  rw [handle_sent s hout hsent o] at hnew
  have hslot := hslots j
  rw [if_pos ⟨hactive, hj⟩] at hslot
  by_cases hnil : textOf input = []
  · -- Without a text the message is not well-formed, and nothing is sent on.
    rw [if_pos hnil, List.self_eq_append_right] at hnew
    rw [hnew] at hslot
    exact absurd hslot.symm (List.cons_ne_nil _ _)
  · rw [if_neg hnil] at hnew
    rw [← List.append_cancel_left hnew, filter_broadcast, if_pos ⟨hactive, val_ne.mpr hj⟩,
      hroom j hactive hj, fromText_slot i (length_textOf hout hsent)] at hslot
    have hsend := (List.cons.inj hslot).1
    have htext : textOf input = lineOf input :=
      List.append_cancel_left (congrArg Send.text hsend)
    have hok := of_decide_eq_true (congrArg Send.ok hsend)
    rw [length_from, htext] at hok
    rcases (textOf_eq_iff input).mp htext with ⟨hzero, hblank⟩
    exact ⟨hzero, hblank, hok⟩

theorem relays_of_plain (hroom : Roomy s i o) (hout : client_line i input = some out)
    (hsent : out.length ≤ MSG_SIZE) (hline : lineOf input ≠ []) (h : Plain (lineOf input)) :
    Relays s (handle s out o) i (lineOf input) := by
  rcases h with ⟨hzero, hblank, hlen⟩
  have htext := (textOf_eq_iff input).mpr ⟨hzero, hblank⟩
  rw [handle_sent s hout hsent o, if_neg (by rw [htext]; exact hline)]
  refine ⟨_, rfl, fun j => ?_⟩
  rw [filter_broadcast, fromText_slot i (length_textOf hout hsent), htext]
  by_cases hother : (s.clients j).active = true ∧ j ≠ i
  · have hok : o.mq_send j (bytes "From " ++ intNumeral i ++ bytes ": " ++ lineOf input) = true := by
      rw [hroom j hother.1 hother.2]
      exact decide_eq_true ((length_from i _).le.trans hlen)
    rw [if_pos hother, if_pos ⟨hother.1, val_ne.mpr hother.2⟩, hok]
  · rw [if_neg hother, if_neg fun h => hother ⟨h.1, val_ne.mp h.2⟩]

/-- With nobody else there is nobody to send to. -/
theorem relays_of_alone (hout : client_line i input = some out) (hsent : out.length ≤ MSG_SIZE)
    (h : ∀ j, (s.clients j).active = true → j = i) (line : List UInt8) :
    Relays s (handle s out o) i line := by
  have hnone : ∀ j, ¬ ((s.clients j).active = true ∧ j ≠ i) := fun j hj => hj.2 (h j hj.1)
  rw [handle_sent s hout hsent o]
  by_cases hnil : textOf input = []
  · rw [if_pos hnil]
    refine ⟨[], (List.append_nil _).symm, fun j => ?_⟩
    rw [if_neg (hnone j), List.filter_nil]
  · rw [if_neg hnil]
    refine ⟨_, rfl, fun j => ?_⟩
    rw [filter_broadcast, if_neg (hnone j), if_neg fun hj => hnone j ⟨hj.1, val_ne.mp hj.2⟩]

end Hops

/-- A line the client has sent arrives verbatim at all other clients, whose
    queues have room, exactly if there are no other clients or the line is
    plain. -/
theorem relay_verbatim_iff (s : State) (hrunning : s.running = true) (i : Fin MAX_CLIENTS)
    (stdin line out rest : List UInt8) (hturn : client_turn i stdin = some (line, some out, rest))
    (hline : line ≠ []) (hsent : out.length ≤ MSG_SIZE) (o : Outcome) (hroom : Roomy s i o) :
    ∃ s', step s (.message out o) = some s' ∧
      (Relays s s' i line ↔ (∀ j, (s.clients j).active = true → j = i) ∨ Plain line) := by
  unfold client_turn at hturn
  rcases Option.map_eq_some_iff.mp hturn with ⟨⟨input, left⟩, _, heq⟩
  simp only [Prod.mk.injEq] at heq
  rcases heq with ⟨rfl, hout, _⟩
  refine ⟨handle s out o, if_pos ⟨hrunning, hsent⟩, ?_⟩
  constructor
  · intro h
    by_cases halone : ∀ j, (s.clients j).active = true → j = i
    · exact Or.inl halone
    · rcases not_forall.mp halone with ⟨j, hj⟩
      rcases Classical.not_imp.mp hj with ⟨hactive, hother⟩
      exact Or.inr (plain_of_relays hroom hout hsent h hactive hother)
  · rintro (halone | hplain)
    · exact relays_of_alone hout hsent halone _
    · exact relays_of_plain hroom hout hsent hline hplain

/-- What the kernel does with queues that have room. -/
def roomy (mqd : Int) : Outcome where
  queue_name := CharArray.zero 64
  overflowed := 0
  mq_open := mqd
  mq_send _ text := text.length ≤ MSG_SIZE

/-- Two clients register. -/
def registrations : List Event :=
  [.message (bytes "INIT /client_7") (roomy 4), .message (bytes "INIT /client_8") (roomy 5)]

theorem registrations_end :
    ∃ s, run step start registrations = some s ∧ s.running = true ∧
      (s.clients 0).active = true ∧ (s.clients 1).active = true := by
  have hend : (run step start registrations).map (fun s =>
      (s.running, (s.clients 0).active, (s.clients 1).active)) = some (true, true, true) := by
    decide +kernel
  rcases Option.map_eq_some_iff.mp hend with ⟨s, hrun, htriple⟩
  rcases Prod.mk.inj htriple with ⟨hrunning, hpair⟩
  exact ⟨s, hrun, hrunning, (Prod.mk.inj hpair).1, (Prod.mk.inj hpair).2⟩

/-- The second client's line arrives at the first. -/
theorem relay_verbatim_run :
    ∃ s s', run step start registrations = some s ∧
      client_turn (1 : Fin MAX_CLIENTS) (bytes "hi there\n")
        = some (bytes "hi there", some (bytes "MSG 1 hi there"), []) ∧
      step s (.message (bytes "MSG 1 hi there") (roomy 0)) = some s' ∧
      Relays s s' 1 (bytes "hi there") := by
  rcases registrations_end with ⟨s, hrun, hrunning, _, _⟩
  have hturn : client_turn (1 : Fin MAX_CLIENTS) (bytes "hi there\n")
      = some (bytes "hi there", some (bytes "MSG 1 hi there"), []) := by decide +kernel
  rcases relay_verbatim_iff s hrunning 1 (bytes "hi there\n") (bytes "hi there")
    (bytes "MSG 1 hi there") [] hturn (by decide) (by decide) (roomy 0) (fun _ _ _ => rfl)
    with ⟨s', hstep, hiff⟩
  have hplain : Plain (bytes "hi there") :=
    ⟨by decide +kernel, by decide +kernel, by decide +kernel⟩
  exact ⟨s, s', hrun, hturn, hstep, hiff.mpr (Or.inr hplain)⟩

/-- A line that begins with two blanks arrives without them. -/
theorem indented_line_changed :
    ∃ s out s', Reachable step start s ∧ (s.clients 1).active = true ∧
      client_turn (1 : Fin MAX_CLIENTS) (bytes "  hi\n") = some (bytes "  hi", some out, []) ∧
      out.length ≤ MSG_SIZE ∧ Roomy s 1 (roomy 0) ∧
      step s (.message out (roomy 0)) = some s' ∧ ¬ Relays s s' 1 (bytes "  hi") := by
  rcases registrations_end with ⟨s, hrun, hrunning, hfirst, hsecond⟩
  have hroom : Roomy s 1 (roomy 0) := fun _ _ _ => rfl
  have hout : client_line (1 : Fin MAX_CLIENTS) (bytes "  hi\n") = some (bytes "MSG 1   hi") := by
    decide +kernel
  have hturn : client_turn (1 : Fin MAX_CLIENTS) (bytes "  hi\n")
      = some (bytes "  hi", some (bytes "MSG 1   hi"), []) := by decide +kernel
  have hsent : (bytes "MSG 1   hi").length ≤ MSG_SIZE := by decide
  refine ⟨s, _, _, reachable_of_run hrun, hsecond, hturn, hsent, hroom,
    if_pos ⟨hrunning, hsent⟩, fun h => ?_⟩
  -- The first client would have to get the line as it is.
  have hplain := plain_of_relays hroom hout hsent h hfirst (by decide)
  exact absurd hplain.2.1 (by decide)

end Lab6

end OsLabs
