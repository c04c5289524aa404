import OsLabs.Lab11.History

/-!
# What the C Library Is Called With

A datagram is whatever somebody has sent, and the server calls functions of the
C library with parts of it. They ask for something: `isdigit` and `isalnum` for
the value of an `unsigned char` or `EOF`, the functions for strings for a
terminator within the array.

Here each function of the receiving path has beside it the list of the calls it
makes, in order. Literals count as arrays, and calls that print are left out.
`uses` puts them together for a step: taking a datagram in, and running the
handler for it.

The terminators are taken care of. `validate_message` looks for one at the end
of each text of a message, and the names in the registry have passed
`validate_client_id`. The characters are not: `validate_client_id` hands on a
`char` as it is, which is negative from 0x80 on, and of the negative values only
that of 0xFF is allowed, being `EOF`. The cast is in the source, in the part of
`trim_whitespace` that is commented out.

## Main definitions

* `Use`, `Use.Defined`: A call, and that it may be made.
* `validateUses`, `findUses`, `createUses`, `safeStrcatUses`, `listUses`,
  `logUses`: The calls of a function.
* `enrollUses`, `dispatchUses`, `uses`: Those of a step.
* `HighName`, `Misread`: A name that is handed on with a negative character, and
  a datagram from which it is.

## Theorems

* `alnumUses_defined_iff`, `validateUses_defined_iff`: When the calls of
  `validate_client_id` may be made.
* `listing_fst`: The calls are those made for `clientList`.
* `enrollUses_defined_iff`, `dispatchUses_defined`: The two sections.
* `calls_defined_iff`: All of it, in every state reached.
* `calls_defined_ann`: An ordinary datagram.
* `negative_character`: A name with a byte above 0x7F.
-/

namespace OsLabs

namespace Lab11

open Chat

def EOF : Int := -1
def UCHAR_MAX : Int := 255

/-- A call of a library function. -/
inductive Use
  /-- `isdigit` or `isalnum`, with this argument. -/
  | ctype (arg : Int)
  /-- A function that reads a string, which is in this array. -/
  | string (array : List UInt8)
  deriving DecidableEq

/-- The call may be made. -/
def Use.Defined : Use → Prop
  | .ctype arg => arg = EOF ∨ 0 ≤ arg ∧ arg ≤ UCHAR_MAX
  | .string array => 0 ∈ array

/-- The value of a `char`, which is signed. -/
def charValue (c : UInt8) : Int := c.toBitVec.toInt

/-- The array of a literal. -/
def literal (text : String) : List UInt8 := bytes text ++ [0]

/-- The loop of `validate_client_id` refuses the name for this character. -/
def refused (c : UInt8) : Bool := !isalnum c && c != 95

/-- The loop of `validate_client_id`, for the characters that are left. -/
def alnumUses : List UInt8 → List Use
  | [] => []
  | c :: id => .ctype (charValue c) :: if refused c then [] else alnumUses id

/-- The calls of `validate_client_id`. -/
def validateUses (id : List UInt8) : List Use :=
  .string id ::
    if strlen id = 0 || strlen id ≥ MAX_CLIENT_NAME then []
    else .ctype (charValue (id.headD 0)) ::
      if isdigit (id.headD 0) then [] else alnumUses (cstr id)

/-- The loop of `find_client_by_id`, for the slots that are left. -/
def findUsesFrom (server : Server) (client_id : List UInt8) : List (Fin MAX_CLIENTS) → List Use
  | [] => []
  | i :: slots =>
    if (server.clients i).is_active then
      .string (server.clients i).client_id.bytes :: .string client_id ::
        if strcmp_eq (server.clients i).client_id.bytes client_id then []
        else findUsesFrom server client_id slots
    else findUsesFrom server client_id slots

/-- The calls of `find_client_by_id`. -/
def findUses (server : Server) (client_id : List UInt8) : List Use :=
  findUsesFrom server client_id (List.finRange MAX_CLIENTS)

/-- The calls of `create_message`: three copies, and the length of what it has
    stored. -/
def createUses (sender recipient content : List UInt8) : List Use :=
  [.string sender, .string recipient, .string content,
    .string ((CharArray.zero MAX_MESSAGE_SIZE).strncpy content (MAX_MESSAGE_SIZE - 1)
      |>.set (MAX_MESSAGE_SIZE - 1) 0).bytes]

/-- The calls of `safe_strcat`. -/
def safeStrcatUses {n : Nat} (dest : CharArray n) (src : List UInt8) (dest_size : Nat) : List Use :=
  if dest_size = 0 then []
  else .string dest.bytes :: if strlen dest.bytes ≥ dest_size - 1 then [] else [.string src]

/-- One slot in the loop of `handle_list_request_udp`: the list so far, whether
    it is empty, and the calls. -/
def listSlotUses (server : Server) (acc : (CharArray MAX_MESSAGE_SIZE × Bool) × List Use)
    (i : Fin MAX_CLIENTS) : (CharArray MAX_MESSAGE_SIZE × Bool) × List Use :=
  let id := (server.clients i).client_id.bytes
  if (server.clients i).is_active then
    let text := if acc.1.2 then acc.1.1 else safe_strcat acc.1.1 (bytes ", ") MAX_MESSAGE_SIZE
    let comma := if acc.1.2 then [] else safeStrcatUses acc.1.1 (literal ", ") MAX_MESSAGE_SIZE
    ((safe_strcat text id MAX_MESSAGE_SIZE, false),
      acc.2 ++ comma ++ safeStrcatUses text id MAX_MESSAGE_SIZE)
  else acc

/-- The loop of `handle_list_request_udp`. -/
def listing (server : Server) : (CharArray MAX_MESSAGE_SIZE × Bool) × List Use :=
  (List.finRange MAX_CLIENTS).foldl (listSlotUses server)
    ((safe_strcpy (CharArray.zero MAX_MESSAGE_SIZE) (bytes "Connected clients: ") MAX_MESSAGE_SIZE,
      true), [.string (literal "Connected clients: ")])

/-- The calls of `handle_list_request_udp`. -/
def listUses (server : Server) : List Use :=
  (listing server).2 ++
    (if (listing server).1.2 then [.string (literal "No clients connected")] else []) ++
    createUses (literal "SERVER") (literal "") (clientList server).bytes

/-- The calls of `log_message`. -/
def logUses (msg : Message) : List Use :=
  [.string msg.recipient_id.bytes, .string msg.content.bytes]

/-- The calls of `handle_2all_request_udp`. -/
def toAllUses (host : Host) (msg : Message) (now : TimeT)
    (results : Fin MAX_CLIENTS → Option Nat) : List Use :=
  let sender_id := msg.sender_id.bytes
  let broadcast := create_message .MSG_BROADCAST sender_id [] msg.content.bytes now
  createUses sender_id (literal "") msg.content.bytes ++
    (List.finRange MAX_CLIENTS).flatMap fun i =>
      let c := host.server.clients i
      if c.is_active then
        [.string c.client_id.bytes, .string sender_id] ++
          if strcmp_eq c.client_id.bytes sender_id then []
          else if (send_message_protocol host.open_fds host.server.server_socket broadcast c.addr
            (results i)).result ≤ 0 then []
          else logUses broadcast
      else []

/-- The calls of `handle_2one_request_udp`. -/
def toOneUses (host : Host) (msg : Message) (now : TimeT) (result : Option Nat) : List Use :=
  let priv := create_message .MSG_PRIVATE msg.sender_id.bytes msg.recipient_id.bytes
    msg.content.bytes now
  createUses msg.sender_id.bytes msg.recipient_id.bytes msg.content.bytes ++
    findUses host.server msg.recipient_id.bytes ++
    ((handle_2one_request_udp host msg now result).elim [] fun sent =>
      if sent.result ≤ 0 then [] else logUses priv)

/-- The calls of `handle_stop_request_udp`. -/
def stopUses (host : Host) (client_id : List UInt8) : List Use :=
  createUses (literal "SERVER") (literal "") (literal "Goodbye!") ++ findUses host.server client_id

/-- The calls of the first section of `handle_message_directly`. A slot that is
    free is given the name with `safe_strcpy`. -/
def enrollUses (host : Host) (msg : Message) : List Use :=
  let sender_id := msg.sender_id.bytes
  findUses host.server sender_id ++
    if (find_client_by_id host.server sender_id).isSome then []
    else if msg.type = MessageType.MSG_STOP.code then []
    else validateUses sender_id ++
      if !validate_client_id sender_id then
        createUses (literal "SERVER") sender_id (literal "Invalid client ID format")
      else if (freeSlot host.server).isSome then [.string sender_id]
      else createUses (literal "SERVER") sender_id (literal "Server full or internal error")

/-- The calls of the `switch` of `handle_message_directly`. -/
def dispatchUses (host : Host) (msg : Message) (now : TimeT) (result : Option Nat)
    (results : Fin MAX_CLIENTS → Option Nat) : List Use :=
  if msg.type = MessageType.MSG_LIST.code then listUses host.server
  else if msg.type = MessageType.MSG_2ALL.code then toAllUses host msg now results
  else if msg.type = MessageType.MSG_2ONE.code then toOneUses host msg now result
  else if msg.type = MessageType.MSG_STOP.code then stopUses host msg.sender_id.bytes
  else []

/-- The calls of a step. `validate_message` makes none, and neither does the
    main thread in a sweep. -/
def uses (s : State) : Event → List Use
  | .receive msg _ checked _ _ =>
    if s.pending.isSome then []
    else if !validate_message msg checked then []
    else enrollUses s.host msg
  | .dispatch now result results =>
    s.pending.elim [] fun p => dispatchUses s.host p.1 now result results
  | .sweep _ => []

/-- A byte that is negative as a `char`, and is not `EOF`. -/
def High (c : UInt8) : Prop := 128 ≤ c.toNat ∧ c.toNat < 255

/-- The first character that may not be in a name is such a byte, and the name
    is not refused for a digit before that. -/
def HighName (id : List UInt8) : Prop :=
  isdigit ((cstr id).headD 0) = false ∧
    ∃ c, (cstr id).find? refused = some c ∧ High c

/-- An acceptable datagram, not a `MSG_STOP`, in such a name, which nobody is
    registered under. -/
def Misread (server : Server) (msg : Message) (checked : TimeT) : Prop :=
  validate_message msg checked = true ∧ msg.type ≠ MessageType.MSG_STOP.code ∧
    find_client_by_id server msg.sender_id.bytes = none ∧ HighName msg.sender_id.bytes

section Characters

/-- A character may be handed on unless it is high. -/
theorem charValue_defined_iff (c : UInt8) : (Use.ctype (charValue c)).Defined ↔ ¬ High c := by
  have hvalue : charValue c = if 2 * c.toNat < 256 then (c.toNat : Int) else c.toNat - 256 :=
    BitVec.toInt_eq_toNat_cond c.toBitVec
  have hlt := c.toNat_lt
  have hmax : UCHAR_MAX = 255 ∧ EOF = -1 := ⟨rfl, rfl⟩
  -- From 128 on the value is lower by 256, which makes 255 the value of `EOF`.
  unfold Use.Defined High
  rw [hvalue, hmax.1, hmax.2]
  split_ifs <;> omega

/-- What may be in a name is not high. -/
theorem not_high_of_allowed {c : UInt8} (h : refused c = false) : ¬ High c := by
  rintro ⟨hlow, _⟩
  have hsmall : c.toNat ≤ 122 := by
    rw [refused, Bool.and_eq_false_iff, Bool.not_eq_false', bne_eq_false_iff_eq] at h
    rcases h with halnum | rfl
    · simp only [isalnum, isdigit, Bool.or_eq_true, Bool.and_eq_true, decide_eq_true_eq,
        UInt8.le_iff_toNat_le] at halnum
      have hvalues : (57 : UInt8).toNat = 57 ∧ (90 : UInt8).toNat = 90 ∧ (122 : UInt8).toNat = 122 :=
        ⟨rfl, rfl, rfl⟩
      omega
    · decide
  omega

/-- The loop stops at the first character that may not be in a name, and all
    before that are harmless. -/
theorem alnumUses_defined_iff (id : List UInt8) :
    (∀ u ∈ alnumUses id, u.Defined) ↔
      ∀ c, id.find? refused = some c → ¬ High c := by
  induction id with
  | nil => exact iff_of_true (List.forall_mem_nil _) fun c hc => (by cases hc)
  | cons c id ih =>
      rw [alnumUses, List.forall_mem_cons, charValue_defined_iff]
      cases hbad : refused c with
      | true =>
          -- The loop returns here, and what follows is not looked at.
          rw [if_pos rfl, List.find?_cons_of_pos hbad]
          refine ⟨fun h c' hc' => Option.some.inj hc' ▸ h.1, fun h => ⟨h c rfl, ?_⟩⟩
          exact List.forall_mem_nil _
      | false =>
          rw [if_neg Bool.false_ne_true, ih, List.find?_cons_of_neg (by rw [hbad]; decide)]
          exact and_iff_right (not_high_of_allowed hbad)

end Characters

section Strings

/-- A string that ends within its array. -/
theorem mem_zero_of_strlen {s : List UInt8} (h : strlen s < s.length) : 0 ∈ s := by
  by_contra hno
  have hall : cstr s = s := cstr_of_no_zero fun c hc hzero => hno (hzero ▸ hc)
  rw [strlen, hall] at h
  omega

theorem literal_defined (text : String) : (Use.string (literal text)).Defined :=
  List.mem_append_right _ List.mem_cons_self

/-- The calls of `validate_client_id` may be made unless it meets a high
    byte. -/
theorem validateUses_defined_iff {id : List UInt8} (hterm : 0 ∈ id)
    (hlen : strlen id < MAX_CLIENT_NAME) :
    (∀ u ∈ validateUses id, u.Defined) ↔ ¬ HighName id := by
  have hstring : (Use.string id).Defined := hterm
  unfold validateUses
  rw [List.forall_mem_cons, and_iff_right hstring]
  cases hname : cstr id with
  | nil =>
      -- An empty name is refused by its length.
      have hempty : strlen id = 0 := by rw [strlen, hname]; rfl
      rw [hempty]
      refine iff_of_true (List.forall_mem_nil _) ?_
      rintro ⟨_, c, hc, _⟩
      rw [hname] at hc
      cases hc
  | cons c rest =>
      have hhead : id.headD 0 = c := by
        cases id with
        | nil => cases hname
        | cons c' id =>
            -- The first byte is the first character of the string.
            unfold cstr at hname
            by_cases hc : c' = 0
            · rw [List.takeWhile_cons_of_neg (by simpa using hc)] at hname
              cases hname
            · rw [List.takeWhile_cons_of_pos (by simpa using hc)] at hname
              exact (List.cons.inj hname).1
      have hpos : strlen id ≠ 0 := by rw [strlen, hname]; exact Nat.succ_ne_zero _
      have hin : (strlen id = 0 || strlen id ≥ MAX_CLIENT_NAME) = false := by
        rw [Bool.or_eq_false_iff, decide_eq_false_iff_not, decide_eq_false_iff_not]
        omega
      rw [hin, if_neg Bool.false_ne_true, List.forall_mem_cons, charValue_defined_iff, hhead]
      unfold HighName
      rw [hname, List.headD_cons]
      cases hdigit : isdigit c with
      | true =>
          -- A digit is harmless, and ends the matter.
          rw [if_pos rfl]
          refine iff_of_true ⟨?_, List.forall_mem_nil _⟩ fun h => (by cases h.1)
          exact not_high_of_allowed (by rw [refused, isalnum, hdigit]; rfl)
      | false =>
          rw [if_neg Bool.false_ne_true, alnumUses_defined_iff]
          -- The first character is handed on twice.
          have hfirst : (∀ c', (c :: rest).find? refused = some c' →
              ¬ High c') → ¬ High c := by
            intro h
            cases hbad : refused c with
            | true => exact h c (List.find?_cons_of_pos hbad)
            | false => exact not_high_of_allowed hbad
          constructor
          · rintro ⟨_, h⟩ ⟨_, c', hc', hhigh⟩
            exact h c' hc' hhigh
          · intro h
            have hall : ∀ c', (c :: rest).find? refused = some c' →
                ¬ High c' := fun c' hc' hhigh => h ⟨rfl, c', hc', hhigh⟩
            exact ⟨hfirst hall, hall⟩

variable {server : Server}

/-- Names that are registered are terminated. -/
theorem active_terminated (hinv : RegistryInv server) {i : Fin MAX_CLIENTS}
    (hactive : (server.clients i).is_active = true) : 0 ∈ (server.clients i).client_id.bytes := by
  have hvalid := (validate_client_id_iff _).mp (hinv.valid i hactive)
  refine mem_zero_of_strlen ?_
  rw [CharArray.length_eq]
  exact hvalid.2.1

/-- The names a search compares are terminated. -/
theorem findUses_defined (hinv : RegistryInv server) {client_id : List UInt8}
    (hterm : 0 ∈ client_id) : ∀ u ∈ findUses server client_id, u.Defined := by
  have hslots : ∀ slots, ∀ u ∈ findUsesFrom server client_id slots, u.Defined := by
    intro slots
    induction slots with
    | nil => exact List.forall_mem_nil _
    | cons i slots ih =>
        rw [findUsesFrom]
        by_cases hactive : (server.clients i).is_active = true
        · rw [if_pos hactive, List.forall_mem_cons, List.forall_mem_cons]
          refine ⟨active_terminated hinv hactive, hterm, ?_⟩
          by_cases hfound : strcmp_eq (server.clients i).client_id.bytes client_id = true
          · rw [if_pos hfound]
            exact List.forall_mem_nil _
          · rw [if_neg hfound]
            exact ih
        · rw [if_neg hactive]
          exact ih
  exact hslots _

/-- A terminator has been written. -/
theorem set_terminated {n k : Nat} (a : CharArray n) (hk : k < n) : 0 ∈ (a.set k 0).bytes :=
  List.mem_of_getElem? (CharArray.set_getElem? a hk 0)

/-- What `create_message` is given must be terminated. What it stores is. -/
theorem createUses_defined {sender recipient content : List UInt8} (hsender : 0 ∈ sender)
    (hrecipient : 0 ∈ recipient) (hcontent : 0 ∈ content) :
    ∀ u ∈ createUses sender recipient content, u.Defined := by
  simp only [createUses, List.forall_mem_cons, Use.Defined]
  exact ⟨hsender, hrecipient, hcontent, set_terminated _ (by decide),
    List.forall_mem_nil _⟩

/-- The texts of a message that has been created are terminated. -/
theorem logUses_defined (type : MessageType) (sender recipient content : List UInt8)
    (now : TimeT) : ∀ u ∈ logUses (create_message type sender recipient content now), u.Defined := by
  simp only [logUses, List.forall_mem_cons, Use.Defined]
  exact ⟨set_terminated _ (by decide), set_terminated _ (by decide),
    List.forall_mem_nil _⟩

end Strings

section Listing

variable {server : Server}

/-- The list is terminated, and so is all it has been made of. -/
def Listed (acc : (CharArray MAX_MESSAGE_SIZE × Bool) × List Use) : Prop :=
  acc.1.1.str.length < MAX_MESSAGE_SIZE ∧ ∀ u ∈ acc.2, u.Defined

theorem terminated_of_str {n : Nat} {a : CharArray n} (h : a.str.length < n) : 0 ∈ a.bytes := by
  refine mem_zero_of_strlen ?_
  rw [CharArray.length_eq]
  exact h

theorem safeStrcatUses_defined {n dest_size : Nat} {dest : CharArray n} {src : List UInt8}
    (hdest : dest.str.length < n) (hsrc : 0 ∈ src) :
    ∀ u ∈ safeStrcatUses dest src dest_size, u.Defined := by
  have hterm : (Use.string dest.bytes).Defined := terminated_of_str hdest
  have hread : (Use.string src).Defined := hsrc
  unfold safeStrcatUses
  split_ifs
  · exact List.forall_mem_nil _
  · exact List.forall_mem_singleton.mpr hterm
  · exact List.forall_mem_cons.mpr ⟨hterm, List.forall_mem_singleton.mpr hread⟩

/-- Appending leaves room for the terminator. -/
theorem str_safe_strcat_lt {n : Nat} {dest : CharArray n} (src : List UInt8)
    (hdest : dest.str.length < n) : (safe_strcat dest src n).str.length < n := by
  rw [str_safe_strcat dest src (Nat.le_refl n) hdest, List.length_take]
  omega

/-- One more name keeps it so. -/
theorem listed_slot (hinv : RegistryInv server)
    {acc : (CharArray MAX_MESSAGE_SIZE × Bool) × List Use} (h : Listed acc) (i : Fin MAX_CLIENTS) :
    Listed (listSlotUses server acc i) := by
  rcases h with ⟨hlen, huses⟩
  unfold listSlotUses
  by_cases hactive : (server.clients i).is_active = true
  · simp only [if_pos hactive]
    have hid := active_terminated hinv hactive
    cases acc.1.2 with
    | true =>
        -- The first name has no comma in front of it.
        simp only [if_true, List.append_nil]
        refine ⟨str_safe_strcat_lt _ hlen, List.forall_mem_append.mpr ⟨huses, ?_⟩⟩
        exact safeStrcatUses_defined hlen hid
    | false =>
        simp only [Bool.false_eq_true, if_false]
        have hcomma := str_safe_strcat_lt (bytes ", ") hlen
        refine ⟨str_safe_strcat_lt _ hcomma, List.forall_mem_append.mpr
          ⟨List.forall_mem_append.mpr ⟨huses, ?_⟩, safeStrcatUses_defined hcomma hid⟩⟩
        exact safeStrcatUses_defined hlen (literal_defined ", ")
  · simp only [if_neg hactive]
    exact ⟨hlen, huses⟩

theorem listed_listing (hinv : RegistryInv server) : Listed (listing server) := by
  refine List.foldlRecOn (motive := Listed) _ _ ⟨?_, ?_⟩ fun acc h i _ => listed_slot hinv h i
  · rw [str_safe_strcpy _ _ (by decide) (Nat.le_refl _)]
    decide +kernel
  · exact List.forall_mem_singleton.mpr (literal_defined _)

/-- The array the calls are made with is the one of `clientList`. -/
theorem listing_fst (server : Server) :
    clientList server
      = if (listing server).1.2 then
          safe_strcpy (listing server).1.1 (bytes "No clients connected") MAX_MESSAGE_SIZE
        else (listing server).1.1 := by
  -- The calls are carried along, and have no part in the list.
  have hfold : (listing server).1 = (List.finRange MAX_CLIENTS).foldl (fun acc i =>
        if (server.clients i).is_active then
          let text := if acc.2 then acc.1 else safe_strcat acc.1 (bytes ", ") MAX_MESSAGE_SIZE
          (safe_strcat text (server.clients i).client_id.bytes MAX_MESSAGE_SIZE, false)
        else acc)
      (safe_strcpy (CharArray.zero MAX_MESSAGE_SIZE) (bytes "Connected clients: ")
        MAX_MESSAGE_SIZE, true) := by
    refine (List.foldl_hom Prod.fst fun acc i => ?_).symm
    unfold listSlotUses
    split_ifs <;> rfl
  rw [hfold]
  rfl

theorem listUses_defined (hinv : RegistryInv server) : ∀ u ∈ listUses server, u.Defined := by
  rcases listed_listing hinv with ⟨hlen, huses⟩
  have hlist : 0 ∈ (clientList server).bytes := by
    rw [listing_fst]
    split_ifs
    · exact set_terminated _ (by decide)
    · exact terminated_of_str hlen
  unfold listUses
  rw [List.forall_mem_append, List.forall_mem_append]
  refine ⟨⟨huses, ?_⟩, createUses_defined (literal_defined _) (literal_defined _) hlist⟩
  split_ifs
  · exact List.forall_mem_singleton.mpr (literal_defined _)
  · exact List.forall_mem_nil _

end Listing

section Sections

variable {host : Host} {msg : Message}

/-- The texts of the message are terminated. -/
def Texts (msg : Message) : Prop :=
  0 ∈ msg.sender_id.bytes ∧ 0 ∈ msg.recipient_id.bytes ∧ 0 ∈ msg.content.bytes

theorem texts_of_valid {checked : TimeT} (h : validate_message msg checked = true) : Texts msg := by
  rcases validate_message_strings h with ⟨hsender, hrecipient, hcontent⟩
  exact ⟨terminated_of_str hsender, terminated_of_str hrecipient, terminated_of_str hcontent⟩

theorem toAllUses_defined (hinv : RegistryInv host.server) (h : Texts msg) (now : TimeT)
    (results : Fin MAX_CLIENTS → Option Nat) :
    ∀ u ∈ toAllUses host msg now results, u.Defined := by
  unfold toAllUses
  rw [List.forall_mem_append]
  refine ⟨createUses_defined h.1 (literal_defined _) h.2.2, fun u hu => ?_⟩
  rcases List.mem_flatMap.mp hu with ⟨i, _, hi⟩
  simp only [] at hi
  by_cases hactive : (host.server.clients i).is_active = true
  · -- Two names are compared, and what has been sent is logged.
    rw [if_pos hactive, List.mem_append, List.mem_pair] at hi
    rcases hi with (rfl | rfl) | hsent
    · exact active_terminated hinv hactive
    · exact h.1
    · split_ifs at hsent
      · cases hsent
      · cases hsent
      · exact logUses_defined _ _ _ _ _ u hsent
  · rw [if_neg hactive] at hi
    cases hi

theorem toOneUses_defined (hinv : RegistryInv host.server) (h : Texts msg) (now : TimeT)
    (result : Option Nat) : ∀ u ∈ toOneUses host msg now result, u.Defined := by
  unfold toOneUses
  rw [List.forall_mem_append, List.forall_mem_append]
  refine ⟨⟨createUses_defined h.1 h.2.1 h.2.2, findUses_defined hinv h.2.1⟩, ?_⟩
  cases handle_2one_request_udp host msg now result with
  | none => exact List.forall_mem_nil _
  | some sent =>
      rw [Option.elim_some]
      split_ifs
      · exact List.forall_mem_nil _
      · exact logUses_defined _ _ _ _ _

/-- The handlers are on the safe side, whatever the message says. -/
theorem dispatchUses_defined (hinv : RegistryInv host.server) (h : Texts msg) (now : TimeT)
    (result : Option Nat) (results : Fin MAX_CLIENTS → Option Nat) :
    ∀ u ∈ dispatchUses host msg now result results, u.Defined := by
  unfold dispatchUses
  split_ifs
  · exact listUses_defined hinv
  · exact toAllUses_defined hinv h now results
  · exact toOneUses_defined hinv h now result
  · rw [stopUses, List.forall_mem_append]
    exact ⟨createUses_defined (literal_defined _) (literal_defined _) (literal_defined _),
      findUses_defined hinv h.1⟩
  · exact List.forall_mem_nil _

/-- What a name that is new leads to is safe once the name has been looked
    at. -/
theorem enrollUses_defined_iff (hinv : RegistryInv host.server) {checked : TimeT}
    (hvalid : validate_message msg checked = true) :
    (∀ u ∈ enrollUses host msg, u.Defined) ↔ ¬ Misread host.server msg checked := by
  have hterm := (texts_of_valid hvalid).1
  have hlen : strlen msg.sender_id.bytes < MAX_CLIENT_NAME := (validate_message_strings hvalid).1
  -- The name is terminated, so whatever is done with it afterwards may be done.
  have hrest : ∀ u ∈ (if !validate_client_id msg.sender_id.bytes then
        createUses (literal "SERVER") msg.sender_id.bytes (literal "Invalid client ID format")
      else if (freeSlot host.server).isSome then [.string msg.sender_id.bytes]
      else createUses (literal "SERVER") msg.sender_id.bytes
        (literal "Server full or internal error")), u.Defined := by
    split_ifs
    · exact createUses_defined (literal_defined _) hterm (literal_defined _)
    · exact List.forall_mem_singleton.mpr hterm
    · exact createUses_defined (literal_defined _) hterm (literal_defined _)
  unfold enrollUses Misread
  simp only []
  rw [List.forall_mem_append, and_iff_right (findUses_defined hinv hterm), and_iff_right hvalid]
  cases find_client_by_id host.server msg.sender_id.bytes with
  | some i => exact iff_of_true (List.forall_mem_nil _) fun h => (by cases h.2.1)
  | none =>
      rw [Option.isSome_none, if_neg Bool.false_ne_true]
      by_cases hstop : msg.type = MessageType.MSG_STOP.code
      · rw [if_pos hstop]
        exact iff_of_true (List.forall_mem_nil _) fun h => h.1 hstop
      · rw [if_neg hstop, List.forall_mem_append, and_iff_left hrest,
          validateUses_defined_iff hterm hlen]
        exact not_congr ⟨fun h => ⟨hstop, rfl, h⟩, fun h => h.2.2⟩

end Sections

/-- In every state reached from the start of the server and for every datagram
    of the size of a message: the calls made when it is taken in may all be made
    exactly if it is not misread, and those of its handler always. -/
theorem calls_defined_iff (port : Int) (fd : Nat) (others : Int → Bool) (s t : State)
    (hstart : start port fd others = some s) (hreach : Reachable step s t) :
    (∀ image client_addr checked now result, t.pending = none →
      ((∀ u ∈ uses t (.receive (Message.ofImage image) client_addr checked now result), u.Defined) ↔
        ¬ Misread t.host.server (Message.ofImage image) checked)) ∧
    ∀ now result results, ∀ u ∈ uses t (.dispatch now result results), u.Defined := by
  have hinv := reachable_preserves kept_registryInv (registryInv_start hstart) hreach
  refine ⟨?_, ?_⟩
  · intro image client_addr checked now result hidle
    unfold uses
    simp only [hidle, Option.isSome_none, Bool.false_eq_true, if_false]
    cases hvalid : validate_message (Message.ofImage image) checked with
    | true => exact enrollUses_defined_iff hinv hvalid
    | false =>
        refine iff_of_true (List.forall_mem_nil _) fun h => ?_
        have hrefused := h.1
        rw [hvalid] at hrefused
        cases hrefused
  · intro now result results
    unfold uses
    cases hpending : t.pending with
    | none => exact List.forall_mem_nil _
    | some p =>
        -- The message has been looked at when it was taken in.
        rcases logged_of_reachable hreach with ⟨log, hlog⟩
        rcases (chronicle_of_reaches hstart hlog).accepted p hpending with ⟨checked, hvalid⟩
        exact dispatchUses_defined hinv (texts_of_valid hvalid) now result results

/-- A datagram that asks for the list, in this name. -/
def listDatagram (name : List UInt8) : Image := (create_message .MSG_LIST name [] [] 0).toImage

/-- The name "ann" is new to a server that knows "bob", and is looked at
    character by character. All the calls may be made. -/
theorem calls_defined_ann : ∃ s t, start 5000 3 (fun _ => false) = some s ∧
    run step s [.receive (Message.ofImage (listDatagram (bytes "bob")))
      { sin_addr := 3, sin_port := 4 } 0 0 none, .dispatch 0 none fun _ => none] = some t ∧
    Use.ctype 97 ∈ uses t (.receive (Message.ofImage (listDatagram (bytes "ann")))
      { sin_addr := 1, sin_port := 2 } 0 0 none) ∧
    ∀ u ∈ uses t (.receive (Message.ofImage (listDatagram (bytes "ann")))
      { sin_addr := 1, sin_port := 2 } 0 0 none), u.Defined := by
  have hend : ((start 5000 3 fun _ => false).bind fun s =>
      run step s [.receive (Message.ofImage (listDatagram (bytes "bob")))
        { sin_addr := 3, sin_port := 4 } 0 0 none, .dispatch 0 none fun _ => none]).map (fun t =>
        (t.pending.isNone, decide (Use.ctype 97 ∈
          uses t (.receive (Message.ofImage (listDatagram (bytes "ann")))
            { sin_addr := 1, sin_port := 2 } 0 0 none)))) = some (true, true) := by decide +kernel
  rcases Option.map_eq_some_iff.mp hend with ⟨t, hbind, hlast⟩
  rcases Option.bind_eq_some_iff.mp hbind with ⟨s, hstart, hrun⟩
  rw [Prod.mk.injEq, Option.isNone_iff_eq_none] at hlast
  refine ⟨s, t, hstart, hrun, of_decide_eq_true hlast.2, ((calls_defined_iff 5000 3 _ s t hstart
    (reachable_of_run hrun)).1 _ _ 0 0 none hlast.1).mpr ?_⟩
  -- No character of the name is refused.
  have hnone : (cstr (Message.ofImage (listDatagram (bytes "ann"))).sender_id.bytes).find? refused
      = none := by decide +kernel
  rintro ⟨_, _, _, _, c, hc, _⟩
  rw [hnone] at hc
  cases hc

/-- A name that begins with the byte 0xC8, which is -56 as a `char`. -/
theorem negative_character : ∃ s, start 5000 3 (fun _ => false) = some s ∧
    Use.ctype (-56) ∈ uses s (.receive (Message.ofImage (listDatagram [200]))
      { sin_addr := 1, sin_port := 2 } 0 0 none) ∧
    ¬ (Use.ctype (-56)).Defined := by
  have hend : (start 5000 3 fun _ => false).map (fun s =>
      decide (Use.ctype (-56) ∈ uses s (.receive (Message.ofImage (listDatagram [200]))
        { sin_addr := 1, sin_port := 2 } 0 0 none))) = some true := by decide +kernel
  rcases Option.map_eq_some_iff.mp hend with ⟨s, hstart, hmem⟩
  refine ⟨s, hstart, of_decide_eq_true hmem, ?_⟩
  rintro (heof | ⟨hlow, _⟩)
  · exact absurd heof (by decide)
  · exact absurd hlow (by decide)

end Lab11

end OsLabs
