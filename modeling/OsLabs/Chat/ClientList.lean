import OsLabs.Chat.Registry
import OsLabs.Core.Split

/-!
# The Text of a Client List

What a client that asks for the list gets to read. The servers append the names
of the active slots, in slot order and separated by ", ", to a buffer of the
size of a message, with appends that stop when the buffer is full, and
`create_message` copies the buffer into the message once more.

Nothing is lost in the second copy, so the text is the first 1023 bytes of the
list written out, or a sentence of its own when nobody is there. Whoever takes
it apart again gets the names of all clients exactly when there are some and
the list fits. Names have no comma in them, so the separators are where they
were put; and since a list is recovered from the words it is taken apart into,
no other text gives the same names.

## Main definitions

* `activeIds`: The names of the active slots, in slot order.
* `listText`: The list written out.
* `decodeList`: The prefix removed and the rest taken apart.
* `Named`: The names of active slots are valid.

## Theorems

* `clientList_str`: What the servers' buffer holds.
* `decodeList_iff`: When the names are recovered from the message.
-/

namespace OsLabs

namespace Chat

def listPrefix : List UInt8 := bytes "Connected clients: "

/-- The names of the active slots of a list. -/
def idsOf (server : Server) (slots : List (Fin MAX_CLIENTS)) : List (List UInt8) :=
  (slots.filter fun i => (server.clients i).is_active).map fun i =>
    (server.clients i).client_id.str

/-- The names of all active clients, in slot order. -/
def activeIds (server : Server) : List (List UInt8) := idsOf server (List.finRange MAX_CLIENTS)

/-- The list of these names written out. -/
def writeList (ids : List (List UInt8)) : List UInt8 := listPrefix ++ [44, 32].intercalate ids

def listText (server : Server) : List UInt8 := writeList (activeIds server)

/-- What a list of names becomes in a message: as much of it as fits, or the
    sentence that there is nobody. -/
def listOf (ids : List (List UInt8)) : List UInt8 :=
  if ids = [] then bytes "No clients connected" else (writeList ids).take (MAX_MESSAGE_SIZE - 1)

/-- The prefix is removed and the rest split at ", ". -/
def decodeList (content : List UInt8) : Option (List (List UInt8)) :=
  if listPrefix <+: content then some (splitPair 44 32 (content.drop listPrefix.length)) else none

/-- The names of active slots are valid. -/
def Named (server : Server) : Prop :=
  ∀ i, (server.clients i).is_active = true →
    validate_client_id (server.clients i).client_id.bytes = true

section Buffer

variable (server : Server)

/-- One turn of the loop that builds the list, with the buffer and whether no
    client has been seen yet. -/
def listSlot (acc : CharArray MAX_MESSAGE_SIZE × Bool) (i : Fin MAX_CLIENTS) :
    CharArray MAX_MESSAGE_SIZE × Bool :=
  if (server.clients i).is_active then
    let text := if acc.2 then acc.1 else safe_strcat acc.1 (bytes ", ") MAX_MESSAGE_SIZE
    (safe_strcat text (server.clients i).client_id.bytes MAX_MESSAGE_SIZE, false)
  else acc

theorem idsOf_concat (slots : List (Fin MAX_CLIENTS)) (i : Fin MAX_CLIENTS) :
    idsOf server (slots ++ [i]) = idsOf server slots ++
      if (server.clients i).is_active then [(server.clients i).client_id.str] else [] := by
  unfold idsOf
  rw [List.filter_append, List.map_append]
  by_cases hactive : (server.clients i).is_active = true <;> simp [hactive]

/-- The buffer holds the list of the names in some slots, cut to its size, and
    it is known whether there are any. -/
def Listed (slots : List (Fin MAX_CLIENTS)) (acc : CharArray MAX_MESSAGE_SIZE × Bool) : Prop :=
  acc.1.str = (writeList (idsOf server slots)).take (MAX_MESSAGE_SIZE - 1) ∧
    (acc.2 = true ↔ idsOf server slots = [])

theorem listed_slot {slots : List (Fin MAX_CLIENTS)} {acc : CharArray MAX_MESSAGE_SIZE × Bool}
    (h : Listed server slots acc) (i : Fin MAX_CLIENTS) :
    Listed server (slots ++ [i]) (listSlot server acc i) := by
  rcases h with ⟨htext, hfirst⟩
  rw [Listed, idsOf_concat, listSlot]
  by_cases hactive : (server.clients i).is_active = true
  · rw [if_pos hactive, if_pos hactive, writeList, intercalate_concat]
    refine ⟨?_, by simp⟩
    by_cases hnone : idsOf server slots = []
    · -- The first name follows the prefix at once.
      simp only [hfirst.mpr hnone, if_true]
      rw [str_safe_strcat_take (by decide) (Nat.le_refl _) htext, hnone, writeList, List.append_assoc]
      rfl
    · have hsome : acc.2 = false := Bool.eq_false_iff.mpr fun hfst => hnone (hfirst.mp hfst)
      have hsep : cstr (bytes ", ") = [44, 32] := by decide
      simp only [hsome, hnone, Bool.false_eq_true, if_false]
      have hcomma := str_safe_strcat_take (by decide) (Nat.le_refl _) htext (bytes ", ")
      rw [str_safe_strcat_take (by decide) (Nat.le_refl _) hcomma, writeList, hsep]
      simp only [List.append_assoc]
      rfl
  · rw [if_neg hactive, if_neg hactive, List.append_nil]
    exact ⟨htext, hfirst⟩

/-- The buffer before the loop, with nothing but the prefix. -/
def listStart : CharArray MAX_MESSAGE_SIZE × Bool :=
  (safe_strcpy (CharArray.zero MAX_MESSAGE_SIZE) listPrefix MAX_MESSAGE_SIZE, true)

theorem listed_slots (slots : List (Fin MAX_CLIENTS)) :
    Listed server slots (slots.foldl (listSlot server) listStart) := by
  induction slots using List.reverseRecOn with
  | nil =>
      refine ⟨?_, fun _ => rfl, fun _ => rfl⟩
      have hprefix : cstr listPrefix = listPrefix := by decide
      change (safe_strcpy _ listPrefix MAX_MESSAGE_SIZE).str = (listPrefix ++ []).take _
      rw [str_safe_strcpy _ _ (by decide) (Nat.le_refl _), hprefix, List.append_nil]
  | append_singleton slots i ih =>
      rw [List.foldl_concat]
      exact listed_slot server ih i

/-- The servers' buffer holds the list cut to its size, or says that there is
    nobody. -/
theorem clientList_str :
    (clientList server).str = if activeIds server = [] then bytes "No clients connected"
      else (listText server).take (MAX_MESSAGE_SIZE - 1) := by
  rcases listed_slots server (List.finRange MAX_CLIENTS) with ⟨htext, hfirst⟩
  have hlist : clientList server =
      if ((List.finRange MAX_CLIENTS).foldl (listSlot server) listStart).2 then
        safe_strcpy ((List.finRange MAX_CLIENTS).foldl (listSlot server) listStart).1
          (bytes "No clients connected") MAX_MESSAGE_SIZE
      else ((List.finRange MAX_CLIENTS).foldl (listSlot server) listStart).1 := rfl
  rw [hlist]
  by_cases hnone : activeIds server = []
  · have hshort : cstr (bytes "No clients connected") = bytes "No clients connected" := by decide
    rw [if_pos (hfirst.mpr hnone), if_pos hnone, str_safe_strcpy _ _ (by decide) (Nat.le_refl _),
      hshort]
    exact List.take_of_length_le (by decide)
  · rw [if_neg fun hfst => hnone (hfirst.mp hfst), if_neg hnone]
    exact htext

end Buffer

section Decoding

variable {server : Server}

/-- The names of the active slots, in a message the servers build. -/
theorem clientList_content (type : MessageType) (sender recipient : List UInt8) (now : TimeT) :
    (create_message type sender recipient (clientList server).bytes now).content.str
      = (clientList server).str := by
  rw [create_message_content]
  refine List.take_of_length_le ?_
  change (clientList server).str.length ≤ _
  rw [clientList_str]
  split_ifs
  · decide
  · exact List.length_take_le _ _

/-- A valid name has no comma in it. -/
theorem comma_not_mem (h : Named server) :
    ∀ name ∈ activeIds server, (44 : UInt8) ∉ name := by
  intro name hname hcomma
  rcases List.mem_map.mp hname with ⟨i, hi, rfl⟩
  have hactive : (server.clients i).is_active = true := (List.mem_filter.mp hi).2
  rcases (validate_client_id_iff _).mp (h i hactive) with ⟨_, _, _, hall⟩
  rcases hall 44 hcomma with hc | hc
  · exact absurd hc (by decide)
  · exact absurd hc (by decide)

/-- Only the list written out whole is taken apart into its names. -/
theorem decodeList_eq_some_iff {content : List UInt8} {ids : List (List UInt8)}
    (hids : ∀ name ∈ ids, (44 : UInt8) ∉ name) :
    decodeList content = some ids ↔ ids ≠ [] ∧ content = writeList ids := by
  unfold decodeList
  constructor
  · intro h
    split_ifs at h with hpre
    rcases hpre with ⟨rest, rfl⟩
    rw [List.drop_left, Option.some.injEq] at h
    refine ⟨fun hnil => splitPair_ne_nil rest (h.trans hnil), ?_⟩
    -- Joining the words again gives what they were taken from.
    rw [writeList, ← h, intercalate_splitPair]
  · rintro ⟨hne, rfl⟩
    rw [writeList, if_pos (List.prefix_append _ _), List.drop_left,
      splitPair_intercalate hids hne]

/-- The names are recovered from the message exactly when there are some and
    the list fits into it. -/
theorem decodeList_iff (h : Named server) (type : MessageType) (sender recipient : List UInt8)
    (now : TimeT) :
    decodeList (create_message type sender recipient (clientList server).bytes now).content.str
        = some (activeIds server) ↔
      activeIds server ≠ [] ∧ (listText server).length ≤ MAX_MESSAGE_SIZE - 1 := by
  rw [decodeList_eq_some_iff (comma_not_mem h), clientList_content, clientList_str]
  refine and_congr_right fun hne => ?_
  rw [if_neg hne]
  constructor
  · intro hfull
    have hlen := congrArg List.length hfull
    rw [List.length_take] at hlen
    change min (MAX_MESSAGE_SIZE - 1) (listText server).length = (listText server).length at hlen
    omega
  · intro hle
    exact List.take_of_length_le hle

end Decoding

end Chat

end OsLabs
