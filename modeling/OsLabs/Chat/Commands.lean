import OsLabs.Chat.Client
import OsLabs.Core.Tokens

/-!
# The Commands of the Chat Client

`handle_user_input` of `client.c`, which lab10 and lab11 have alike: a line is
copied, taken apart with `strtok`, and the command in it carried out.

A command is the first token of the line, the separator being a space. What
follows the command, or for `2one` the recipient, is read with no separators at
all, so that it is taken as it stands, spaces included. `trim_whitespace` does
nothing, its body being commented out.

## Main definitions

* `strtok`: The next token, for a string of separators.
* `trim_whitespace`, `client_stop`: As in the source.
* `handle_user_input`: The client afterwards, and the messages handed to
  `send_message_protocol`.
* `IsLine`: A line of input that fits into the copy.
* `Quits`: The first token of a line ends the client.

## Theorems

* `strtok_space`, `strtok_rest`: The two ways the line is read.
* `handle_user_input_2all`, `handle_user_input_2one`: What the two commands
  with a text send.
* `handle_user_input_cases`: What any line does.
* `commands_of_line`: All of it.
* `commands_of_line_bob`: A line with spaces.
-/

namespace OsLabs

namespace Chat

/-- `strtok(s, delim)`, or `strtok(NULL, delim)` for what an earlier call has
    left: the token, and what this one leaves. -/
def strtok (s delim : List UInt8) : Option (List UInt8 × List UInt8) :=
  nextToken (fun c => delim.contains c) s

def trim_whitespace (str : List UInt8) : List UInt8 := str

theorem trim_whitespace_eq (str : List UInt8) : trim_whitespace str = str := rfl

def client_stop (client : Client) : Client := { client with is_running := false }

/-- The branches of `handle_user_input`, `rest` being what `strtok` has left
    behind the command. A call of `strtok` that finds nothing leaves nothing, so
    the one after it finds nothing either. -/
def runCommand (client : Client) (command rest : List UInt8) (now : TimeT) :
    Client × List Message :=
  if command = bytes "help" then (client, [])
  else if command = bytes "list" then (client, [client_send_list_request client now])
  else if command = bytes "2all" then
    -- The text is what follows, with all its spaces.
    match strtok rest [] with
    | none => (client, [])
    | some (message, _) =>
      if strlen (trim_whitespace message) > 0 then
        (client, (client_send_2all client (trim_whitespace message) now).toList)
      else (client, [])
  else if command = bytes "2one" then
    -- The name ends at the next space, and what is behind that is the text.
    match strtok rest (bytes " ") with
    | none => (client, [])
    | some (recipient, rest) => match strtok rest [] with
      | none => (client, [])
      | some (message, _) =>
        if strlen (trim_whitespace recipient) > 0 ∧ strlen (trim_whitespace message) > 0 then
          (client, (client_send_2one client (trim_whitespace recipient)
            (trim_whitespace message) now).toList)
        else (client, [])
  else if command = bytes "quit" ∨ command = bytes "exit" ∨ command = bytes "stop" then
    (client_stop client, [client_send_stop client now])
  else (client, [])

/-- `handle_user_input`. -/
def handle_user_input (client : Client) (input : List UInt8) (now : TimeT) :
    Client × List Message :=
  let trimmed := trim_whitespace (cstr input)
  if strlen trimmed = 0 then (client, [])
  else match strtok trimmed (bytes " ") with
    | none => (client, [])
    | some (command, rest) => runCommand client command rest now

/-- A line of input, without its newline, that fits into the copy. -/
def IsLine (line : List UInt8) : Prop :=
  line.length < MAX_MESSAGE_SIZE ∧ ∀ c ∈ line, c ≠ 0 ∧ c ≠ 10

instance (line : List UInt8) : Decidable (IsLine line) := inferInstanceAs (Decidable (_ ∧ _))

/-- The three words that end the client. -/
def EndsClient (command : List UInt8) : Prop :=
  command = bytes "quit" ∨ command = bytes "exit" ∨ command = bytes "stop"

/-- The first token of the line, separated by spaces, is one of them. -/
def Quits (line : List UInt8) : Prop :=
  ∃ token rest, FirstToken (fun c => c == 32) line token rest ∧ EndsClient token

section Reading

variable {s token rest : List UInt8}

/-- `strtok` with a space finds the first token. -/
theorem strtok_space :
    strtok s (bytes " ") = some (token, rest) ↔ FirstToken (fun c => c == 32) s token rest := by
  have hsep : (fun c : UInt8 => (bytes " ").contains c) = fun c => c == 32 := by
    funext c
    change (c == 32 || false) = _
    rw [Bool.or_false]
  rw [strtok, hsep, nextToken_eq_some_iff]

/-- With no separators it takes all there is. -/
theorem strtok_rest (hne : s ≠ []) : strtok s [] = some (s, []) := by
  unfold strtok
  exact nextToken_whole (fun c => rfl) hne

/-- A word and a space in front of a text. -/
theorem strtok_word (token : List UInt8) (hne : token ≠ []) (hword : ∀ c ∈ token, c ≠ 32)
    (rest : List UInt8) :
    strtok (token ++ 32 :: rest) (bytes " ") = some (token, rest) := by
  refine strtok_space.mpr ⟨hne, fun c hc => ?_, [], fun _ hc => absurd hc List.not_mem_nil,
    Or.inr ⟨32, rfl, rfl⟩⟩
  rw [beq_eq_false_iff_ne]
  exact hword c hc

end Reading

section Commands

variable (client : Client) (now : TimeT)

theorem strlen_ne_zero {s : List UInt8} (hne : s ≠ []) (hno : ∀ c ∈ s, c ≠ 0) : strlen s ≠ 0 := by
  rw [strlen, cstr_of_no_zero hno]
  exact fun h => hne (List.length_eq_zero_iff.mp h)

/-- A line without terminators in it is read as its first token says. -/
theorem handle_user_input_eq {line token rest : List UInt8} (hno : ∀ c ∈ line, c ≠ 0)
    (hfirst : strtok line (bytes " ") = some (token, rest)) :
    handle_user_input client line now = runCommand client token rest now := by
  have hne : line ≠ [] := by
    rintro rfl
    cases hfirst
  unfold handle_user_input
  simp only [trim_whitespace, cstr_of_no_zero hno, if_neg (strlen_ne_zero hne hno), hfirst]

/-- `2all` and a text send the text. -/
theorem handle_user_input_2all {m : List UInt8} (hne : m ≠ [])
    (hno : ∀ c ∈ bytes "2all " ++ m, c ≠ 0) :
    handle_user_input client (bytes "2all " ++ m) now
      = (client, [clientMessage client .MSG_2ALL [] m now]) := by
  have hcommand : strtok (bytes "2all " ++ m) (bytes " ") = some (bytes "2all", m) :=
    strtok_word (bytes "2all") (by decide) (by decide +kernel) m
  have hlen := strlen_ne_zero hne fun c hc => hno c (List.mem_append_right _ hc)
  have hother : bytes "2all" ≠ bytes "help" ∧ bytes "2all" ≠ bytes "list" := by decide +kernel
  rw [handle_user_input_eq client now hno hcommand, runCommand, if_neg hother.1, if_neg hother.2,
    if_pos rfl, strtok_rest hne]
  simp only []
  rw [trim_whitespace_eq, if_pos (Nat.pos_of_ne_zero hlen), client_send_2all, if_neg hlen]
  rfl

/-- `2one`, a name without spaces and a text send the text to the name. -/
theorem handle_user_input_2one {r m : List UInt8} (hr : r ≠ []) (hspace : ∀ c ∈ r, c ≠ 32)
    (hne : m ≠ []) (hno : ∀ c ∈ bytes "2one " ++ (r ++ 32 :: m), c ≠ 0) :
    handle_user_input client (bytes "2one " ++ (r ++ 32 :: m)) now
      = (client, [clientMessage client .MSG_2ONE r m now]) := by
  have hcommand : strtok (bytes "2one " ++ (r ++ 32 :: m)) (bytes " ")
      = some (bytes "2one", r ++ 32 :: m) :=
    strtok_word (bytes "2one") (by decide) (by decide +kernel) _
  have hrecipient : strtok (r ++ 32 :: m) (bytes " ") = some (r, m) := strtok_word r hr hspace m
  have htail : ∀ c ∈ r ++ 32 :: m, c ≠ 0 := fun c hc => hno c (List.mem_append_right _ hc)
  have hlen := strlen_ne_zero hne fun c hc =>
    htail c (List.mem_append_right _ (List.mem_cons_of_mem _ hc))
  have hrlen := strlen_ne_zero hr fun c hc => htail c (List.mem_append_left _ hc)
  have hother : bytes "2one" ≠ bytes "help" ∧ bytes "2one" ≠ bytes "list" ∧
      bytes "2one" ≠ bytes "2all" := by decide +kernel
  rw [handle_user_input_eq client now hno hcommand, runCommand, if_neg hother.1,
    if_neg hother.2.1, if_neg hother.2.2, if_pos rfl, hrecipient]
  simp only [strtok_rest hne]
  rw [trim_whitespace_eq, trim_whitespace_eq, client_send_2one, if_neg hlen,
    if_pos ⟨Nat.pos_of_ne_zero hrlen, Nat.pos_of_ne_zero hlen⟩]
  rfl

theorem runCommand_ends {command : List UInt8} (h : EndsClient command) (rest : List UInt8) :
    runCommand client command rest now = (client_stop client, [client_send_stop client now]) := by
  -- The three words are told from the commands that are tried before them.
  have hother : ∀ word ∈ [bytes "quit", bytes "exit", bytes "stop"],
      word ≠ bytes "help" ∧ word ≠ bytes "list" ∧ word ≠ bytes "2all" ∧ word ≠ bytes "2one" := by
    decide +kernel
  have hmem : command ∈ [bytes "quit", bytes "exit", bytes "stop"] := by
    simpa only [EndsClient, List.mem_cons, List.not_mem_nil, or_false] using h
  rcases hother command hmem with ⟨hhelp, hlist, hall, hone⟩
  rw [runCommand, if_neg hhelp, if_neg hlist, if_neg hall, if_neg hone]
  exact if_pos h

/-- Any other command sends one message at most and leaves the client as it
    is. -/
theorem runCommand_goes_on {command : List UInt8} (h : ¬ EndsClient command)
    (rest : List UInt8) :
    (runCommand client command rest now).1 = client ∧
      (runCommand client command rest now).2.length ≤ 1 := by
  have hlist : ∀ o : Option Message, o.toList.length ≤ 1 := fun o => by cases o <;> simp
  have hzero : ([] : List Message).length ≤ 1 := Nat.zero_le 1
  unfold runCommand
  by_cases hhelp : command = bytes "help"
  · rw [if_pos hhelp]
    exact ⟨rfl, hzero⟩
  rw [if_neg hhelp]
  by_cases hlistCommand : command = bytes "list"
  · rw [if_pos hlistCommand]
    exact ⟨rfl, Nat.le_refl 1⟩
  rw [if_neg hlistCommand]
  by_cases hall : command = bytes "2all"
  · -- The text may be missing, or nothing.
    rw [if_pos hall]
    cases strtok rest [] with
    | none => exact ⟨rfl, hzero⟩
    | some p =>
        simp only []
        split_ifs
        · exact ⟨rfl, hlist _⟩
        · exact ⟨rfl, hzero⟩
  rw [if_neg hall]
  by_cases hone : command = bytes "2one"
  · -- So may the name, and the text behind it.
    rw [if_pos hone]
    cases strtok rest (bytes " ") with
    | none => exact ⟨rfl, hzero⟩
    | some p =>
        simp only []
        cases strtok p.2 [] with
        | none => exact ⟨rfl, hzero⟩
        | some q =>
            simp only []
            split_ifs
            · exact ⟨rfl, hlist _⟩
            · exact ⟨rfl, hzero⟩
  -- A command that is not known is reported to the user.
  unfold EndsClient at h
  rw [if_neg hone, if_neg h]
  exact ⟨rfl, hzero⟩

/-- Any line sends one message at most, and stops the client exactly if its
    first token says so. -/
theorem handle_user_input_cases {line : List UInt8} (hno : ∀ c ∈ line, c ≠ 0) :
    (handle_user_input client line now).2.length ≤ 1 ∧
      (Quits line ∧ (handle_user_input client line now).1 = client_stop client ∨
        ¬ Quits line ∧ (handle_user_input client line now).1 = client) := by
  cases hfirst : strtok line (bytes " ") with
  | none =>
      -- Without a token there is neither a command nor a first token that quits.
      have hsame : handle_user_input client line now = (client, []) := by
        unfold handle_user_input
        simp only [trim_whitespace, cstr_of_no_zero hno, hfirst, ite_self]
      have hnot : ¬ Quits line := by
        rintro ⟨token, rest, htoken, _⟩
        rw [strtok_space.mpr htoken] at hfirst
        cases hfirst
      rw [hsame]
      exact ⟨Nat.zero_le 1, Or.inr ⟨hnot, rfl⟩⟩
  | some p =>
      rw [handle_user_input_eq client now hno hfirst]
      have hquits : Quits line ↔ EndsClient p.1 := by
        refine ⟨?_, fun h => ⟨p.1, p.2, strtok_space.mp hfirst, h⟩⟩
        rintro ⟨token, rest, htoken, hends⟩
        rw [strtok_space.mpr htoken, Option.some.injEq] at hfirst
        rw [← hfirst]
        exact hends
      rw [hquits]
      by_cases hends : EndsClient p.1
      · rw [runCommand_ends client now hends]
        exact ⟨Nat.le_refl 1, Or.inl ⟨hends, rfl⟩⟩
      · rcases runCommand_goes_on client now hends p.2 with ⟨hclient, hlen⟩
        exact ⟨hlen, Or.inr ⟨hends, hclient⟩⟩

/-- A name that may be one is sent whole. -/
theorem clientMessage_recipient {r : List UInt8} (hr : validate_client_id r = true)
    (type : MessageType) (m : List UInt8) :
    (clientMessage client type r m now).recipient_id.str = cstr r := by
  have hlen := ((validate_client_id_iff r).mp hr).2.1
  have hmax : MAX_CLIENT_NAME = 100 := rfl
  rw [strlen] at hlen
  -- A valid name is short enough not to be cut.
  exact (CharArray.cstr_strncpy _ r (by decide) (CharArray.zero_getElem? (by decide))).trans
    (List.take_of_length_le (by omega))

/-- So is a text that was part of a line. -/
theorem clientMessage_content_line {line m : List UInt8} (hline : IsLine line)
    (hpart : m <:+ line) (type : MessageType) (r : List UInt8) :
    (clientMessage client type r m now).content.str = m := by
  have hno : ∀ c ∈ m, c ≠ 0 := fun c hc => (hline.2 c (hpart.subset hc)).1
  have hlen := hpart.length_le
  have hmax := hline.1
  rw [clientMessage_content, cstr_of_no_zero hno, List.take_of_length_le (by omega)]

/-- A name has no spaces in it. -/
theorem no_space_of_valid {r : List UInt8} (hr : validate_client_id r = true) :
    ∀ c ∈ cstr r, c ≠ 32 := by
  rintro c hc rfl
  -- A space is neither a letter or a digit nor the underscore.
  rcases ((validate_client_id_iff r).mp hr).2.2.2 _ hc with h | h
  · exact absurd h (by decide)
  · exact absurd h (by decide)

end Commands

/-- A line of input sends one message at most, and it stops the client exactly
    if its first token is one of the three words. `2one` with a name and a text
    sends exactly the text to the name, and `2all` with a text exactly the text,
    whatever spaces there are in it. -/
theorem commands_of_line (client : Client) (now : TimeT) :
    (∀ line, IsLine line →
      (handle_user_input client line now).2.length ≤ 1 ∧
      (Quits line ∧ (handle_user_input client line now).1 = client_stop client ∨
        ¬ Quits line ∧ (handle_user_input client line now).1 = client)) ∧
    (∀ r m, validate_client_id r = true → m ≠ [] → IsLine (bytes "2one " ++ (r ++ 32 :: m)) →
      ∃ msg, handle_user_input client (bytes "2one " ++ (r ++ 32 :: m)) now = (client, [msg]) ∧
        msg.type = MessageType.MSG_2ONE.code ∧ msg.recipient_id.str = r ∧ msg.content.str = m) ∧
    (∀ m, m ≠ [] → IsLine (bytes "2all " ++ m) →
      ∃ msg, handle_user_input client (bytes "2all " ++ m) now = (client, [msg]) ∧
        msg.type = MessageType.MSG_2ALL.code ∧ msg.content.str = m) := by
  refine ⟨fun line hline => handle_user_input_cases client now fun c hc => (hline.2 c hc).1, ?_, ?_⟩
  · intro r m hr hne hline
    have hno : ∀ c ∈ bytes "2one " ++ (r ++ 32 :: m), c ≠ 0 := fun c hc => (hline.2 c hc).1
    have hrno : ∀ c ∈ r, c ≠ 0 :=
      fun c hc => hno c (List.mem_append_right _ (List.mem_append_left _ hc))
    have hcstr := cstr_of_no_zero hrno
    have hrne : r ≠ [] := by
      rintro rfl
      exact absurd hr (by decide)
    -- The name has no spaces, so that it is the token, and the text is the rest.
    have hspace := no_space_of_valid hr
    rw [hcstr] at hspace
    have hpart : m <:+ bytes "2one " ++ (r ++ 32 :: m) := ⟨bytes "2one " ++ (r ++ [32]), by simp⟩
    exact ⟨_, handle_user_input_2one client now hrne hspace hne hno, rfl,
      (clientMessage_recipient client now hr _ m).trans hcstr,
      clientMessage_content_line client now hline hpart _ r⟩
  · intro m hne hline
    exact ⟨_, handle_user_input_2all client now hne fun c hc => (hline.2 c hc).1, rfl,
      clientMessage_content_line client now hline (List.suffix_append _ m) _ []⟩

/-- The client "ann" before it is connected. -/
def annClient : Client where
  server_socket := -1
  client_id := (CharArray.zero MAX_CLIENT_NAME).strcpy (bytes "ann")
  server_ip := (CharArray.zero 16).strcpy (bytes "127.0.0.1")
  server_port := 5000
  is_connected := false
  is_running := true

/-- A text with a space at either end. -/
theorem commands_of_line_bob :
    ∃ msg, handle_user_input annClient (bytes "2one bob  hi ") 0 = (annClient, [msg]) ∧
      msg.recipient_id.str = bytes "bob" ∧ msg.content.str = bytes " hi " := by
  have hline : IsLine (bytes "2one " ++ (bytes "bob" ++ 32 :: bytes " hi ")) := by decide +kernel
  rcases (commands_of_line annClient 0).2.1 (bytes "bob") (bytes " hi ") (by decide) (by decide) hline
    with ⟨msg, hsent, _, hrecipient, hcontent⟩
  exact ⟨msg, hsent, hrecipient, hcontent⟩

end Chat

end OsLabs
