import OsLabs.Chat.Interactive

/-!
# What a Message Comes From

The other direction of `Commands`: from a message that `handle_user_input` has
sent back to the line. A message with a text has come from a line whose first
token is `2all` or `2one`, and the text is what the line holds behind it, up to
its end.

The client copies as much of the text as a message holds, and sends the length
of all of it along, so that a receiver refuses a message whose text has been cut. A
string of the input loop is short enough for the length to be a true one. So a
text that is accepted is the text of the line, all of it.

## Main definitions

* `SaysAll`, `SaysOne`: What a line says, and to whom.
* `Caused`: A line makes a client send a message.

## Theorems

* `caused_of_sent`: What `handle_user_input` sends is caused by the line.
* `caused_all`, `caused_one`: An accepted message has the text of the line.
* `short_of_session`: The strings of the input loop are shorter than its buffer.
-/

namespace OsLabs

namespace Chat

/-- The line is the command `2all` with a text. -/
def SaysAll (line text : List UInt8) : Prop :=
  FirstToken (fun c => c == 32) line (bytes "2all") text ∧ text ≠ []

/-- The line is the command `2one` with a recipient and a text. -/
def SaysOne (line recipient text : List UInt8) : Prop :=
  ∃ rest, FirstToken (fun c => c == 32) line (bytes "2one") rest ∧
    FirstToken (fun c => c == 32) rest recipient text ∧ text ≠ []

/-- The line makes the client send the message. -/
inductive Caused (client : Client) (line : List UInt8) (now : TimeT) : Message → Prop
  | plain (type : MessageType) (h : type = .MSG_LIST ∨ type = .MSG_STOP) :
      Caused client line now (clientMessage client type [] [] now)
  | all (text : List UInt8) (spoken : SaysAll line text) :
      Caused client line now (clientMessage client .MSG_2ALL [] text now)
  | one (recipient text : List UInt8) (spoken : SaysOne line recipient text) :
      Caused client line now (clientMessage client .MSG_2ONE recipient text now)

section Causes

variable {client : Client} {line rest text : List UInt8} {now : TimeT} {msg : Message}

/-- With no separators `strtok` finds something where there is something. -/
theorem strtok_rest_some {p : List UInt8 × List UInt8} (h : strtok rest [] = some p) :
    p.1 = rest ∧ rest ≠ [] := by
  by_cases hne : rest = []
  · rw [hne] at h
    cases h
  · rw [strtok_rest hne, Option.some.injEq] at h
    exact ⟨by rw [← h], hne⟩

/-- A message that a command has sent, and what the command must have been. -/
theorem caused_of_runCommand {command : List UInt8}
    (hfirst : FirstToken (fun c => c == 32) line command rest)
    (h : msg ∈ (runCommand client command rest now).2) : Caused client line now msg := by
  unfold runCommand at h
  split_ifs at h with hhelp hlist hall hone hends
  · exact absurd h List.not_mem_nil
  · rw [List.mem_singleton.mp h]
    exact .plain .MSG_LIST (Or.inl rfl)
  · cases hrest : strtok rest [] with
    | none =>
        rw [hrest] at h
        exact absurd h List.not_mem_nil
    | some p =>
        rcases strtok_rest_some hrest with ⟨htext, hne⟩
        simp only [hrest] at h
        split_ifs at h
        · rw [trim_whitespace_eq, Option.mem_toList, client_send_2all] at h
          split_ifs at h
          rw [← Option.some.inj h, htext]
          exact .all rest ⟨hall ▸ hfirst, hne⟩
        · exact absurd h List.not_mem_nil
  · cases hrecipient : strtok rest (bytes " ") with
    | none =>
        rw [hrecipient] at h
        exact absurd h List.not_mem_nil
    | some p =>
        simp only [hrecipient] at h
        cases hrest : strtok p.2 [] with
        | none =>
            rw [hrest] at h
            exact absurd h List.not_mem_nil
        | some q =>
            rcases strtok_rest_some hrest with ⟨htext, hne⟩
            simp only [hrest] at h
            split_ifs at h
            · rw [trim_whitespace_eq, trim_whitespace_eq, Option.mem_toList, client_send_2one] at h
              split_ifs at h
              rw [← Option.some.inj h, htext]
              exact .one p.1 p.2 ⟨rest, hone ▸ hfirst, strtok_space.mp hrecipient, hne⟩
            · exact absurd h List.not_mem_nil
  · rw [List.mem_singleton.mp h]
    exact .plain .MSG_STOP (Or.inr rfl)
  · exact absurd h List.not_mem_nil

/-- Every message that `handle_user_input` sends is caused by its string. -/
theorem caused_of_sent {input : List UInt8}
    (h : msg ∈ (handle_user_input client input now).2) : Caused client (cstr input) now msg := by
  unfold handle_user_input at h
  simp only [] at h
  rw [trim_whitespace_eq] at h
  split_ifs at h with hempty
  · exact absurd h List.not_mem_nil
  · cases hfirst : strtok (cstr input) (bytes " ") with
    | none =>
        rw [hfirst] at h
        exact absurd h List.not_mem_nil
    | some p =>
        rw [hfirst] at h
        exact caused_of_runCommand (strtok_space.mp hfirst) h

/-- The text behind a first token is shorter than the line. -/
theorem suffix_of_firstToken {sep : UInt8 → Bool} {token : List UInt8}
    (h : FirstToken sep line token rest) : rest <:+ line := by
  rcases h.place with ⟨gap, _, ⟨_, rfl⟩ | ⟨c, _, rfl⟩⟩
  · exact List.nil_suffix
  · exact ⟨gap ++ (token ++ [c]), by simp⟩

theorem SaysAll.suffix (h : SaysAll line text) : text <:+ line := suffix_of_firstToken h.1

theorem SaysOne.suffix {recipient : List UInt8} (h : SaysOne line recipient text) :
    text <:+ line := by
  rcases h with ⟨rest, hfirst, hrecipient, _⟩
  exact (suffix_of_firstToken hrecipient).trans (suffix_of_firstToken hfirst)

/-- An accepted message has not lost any of the text that it was built from. -/
theorem content_of_accepted {type : MessageType} {recipient : List UInt8} {received : TimeT}
    (hno : ∀ c ∈ text, c ≠ 0) (hshort : text.length < 2 ^ 31)
    (hvalid : validate_message (clientMessage client type recipient text now) received = true) :
    (clientMessage client type recipient text now).content.str = text := by
  have hstrlen : strlen text = text.length := by rw [strlen, cstr_of_no_zero hno]
  have hfits : text.length < MAX_MESSAGE_SIZE := by
    by_contra hlong
    rw [long_text_refused client type recipient text now (by omega) (by omega) received] at hvalid
    cases hvalid
  rw [clientMessage_content, cstr_of_no_zero hno, List.take_of_length_le (by omega)]

theorem caused_all {received : TimeT} (h : Caused client line now msg)
    (hno : ∀ c ∈ line, c ≠ 0) (hshort : line.length < 2 ^ 31)
    (htype : msg.type = MessageType.MSG_2ALL.code)
    (hvalid : validate_message msg received = true) : SaysAll line msg.content.str := by
  have hcodes : ∀ type : MessageType, type.code = MessageType.MSG_2ALL.code → type = .MSG_2ALL := by
    intro type
    cases type <;> decide
  cases h with
  | plain type h =>
      rw [hcodes type htype] at h
      exact absurd h (by decide)
  | one recipient text spoken => exact absurd (hcodes .MSG_2ONE htype) (by decide)
  | all text spoken =>
      have hpart := spoken.suffix
      have hlen := hpart.length_le
      rw [content_of_accepted (fun c hc => hno c (hpart.subset hc)) (by omega) hvalid]
      exact spoken

theorem caused_one {received : TimeT} (h : Caused client line now msg)
    (hno : ∀ c ∈ line, c ≠ 0) (hshort : line.length < 2 ^ 31)
    (htype : msg.type = MessageType.MSG_2ONE.code)
    (hvalid : validate_message msg received = true) :
    ∃ recipient, SaysOne line recipient msg.content.str ∧
      msg.recipient_id.str = recipient.take (MAX_CLIENT_NAME - 1) := by
  have hcodes : ∀ type : MessageType, type.code = MessageType.MSG_2ONE.code → type = .MSG_2ONE := by
    intro type
    cases type <;> decide
  cases h with
  | plain type h =>
      rw [hcodes type htype] at h
      exact absurd h (by decide)
  | all text spoken => exact absurd (hcodes .MSG_2ALL htype) (by decide)
  | one recipient text spoken =>
      have hpart := spoken.suffix
      have hlen := hpart.length_le
      refine ⟨recipient, ?_, ?_⟩
      · rw [content_of_accepted (fun c hc => hno c (hpart.subset hc)) (by omega) hvalid]
        exact spoken
      · rcases spoken with ⟨rest, hfirst, hrecipient, _⟩
        -- The recipient is a part of the line as well.
        have hrno : ∀ c ∈ recipient, c ≠ 0 := by
          intro c hc
          refine hno c ((suffix_of_firstToken hfirst).subset ?_)
          rcases hrecipient.place with ⟨gap, _, ⟨hrest, _⟩ | ⟨d, _, hrest⟩⟩
          · rw [hrest]
            exact List.mem_append_right _ hc
          · rw [hrest]
            exact List.mem_append_right _ (List.mem_append_left _ hc)
        have hcopy := CharArray.cstr_strncpy (CharArray.zero MAX_CLIENT_NAME) recipient
          (by decide : MAX_CLIENT_NAME - 1 < MAX_CLIENT_NAME) (CharArray.zero_getElem? (by decide))
        rw [cstr_of_no_zero hrno] at hcopy
        exact hcopy

/-- A string that the input loop has handed on is one without a terminator in it,
    and it is shorter than the buffer. -/
theorem short_of_session {s s' : Session} {e : SessionEvent} (hstep : sessionStep s e = some s')
    (h : ∀ input ∈ s.calls, cstr input = input ∧ input.length < BUFFER_SIZE) :
    ∀ input ∈ s'.calls, cstr input = input ∧ input.length < BUFFER_SIZE := by
  rcases sessionStep_cases hstep with ⟨_, input, hread, hcalls⟩ | ⟨_, hcalls, _⟩
  · rw [hcalls]
    intro c hc
    rcases List.mem_append.mp hc with hc | hc
    · exact h c hc
    · rw [List.mem_singleton.mp hc]
      refine ⟨cstr_cstr _, ?_⟩
      have hlen : (cstr (stripNewline input)).length ≤ BUFFER_SIZE - 1 := by
        rw [typed_eq hread]
        exact List.length_take_le _ _
      have hsize : BUFFER_SIZE = 2048 := rfl
      omega
  · rw [hcalls]
    exact h

end Causes

end Chat

end OsLabs
