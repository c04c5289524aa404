import OsLabs.Chat.Commands
import OsLabs.Core.Lines
import OsLabs.Core.Run
import OsLabs.Lab6.PosixChat

/-!
# The Lines a User Types

`client_run_interactive` of lab10 and lab11: a loop that reads with `fgets` into
`BUFFER_SIZE` bytes and hands what it gets to `handle_user_input`, without its
newline if it has one.

The loop never asks whether it has one. `fgets` stops at the limit of the buffer
as it does at the end of a line, so that a longer line comes in several pieces,
and each of them is taken for a command. And `handle_user_input` copies the
piece into half as many bytes, `MAX_MESSAGE_SIZE`, which a line that fits into
the buffer need not fit into.

Both are conditions on what is read next, and the runs that meet them are
exactly those in which nothing goes wrong.

## Main definitions

* `stripNewline`: What the loop does to the string before it hands it on.
* `Session`, `SessionEvent`, `sessionStep`: The loop, with what is left of the
  input and the strings handed on.
* `FitsCopy`, `ShortLine`: The strings handed on fit, and a step is of the kind
  that keeps it so.
* `OnePerLine`, `WholeLine`: They are the lines, likewise.

## Theorems

* `fgets_cases`: A piece is a line or has no newline.
* `typed_eq`: The string that is handed on.
* `onePerLine_iff`: Lines are told from pieces by their number.
* `copies_fit_iff`: When the copies are large enough.
* `copies_fit_list`: A short line.
* `copy_too_small`: A line of 1024 bytes.
* `one_call_per_line_iff`: When each line is one command.
* `one_call_per_line_two`: Two lines.
* `text_executed`: The end of a message that is executed as `quit`.
-/

namespace OsLabs

namespace Chat

open Lab6 (fgets)

def BUFFER_SIZE : Nat := 2048

/-- The newline at the end of the string in `input` is overwritten. -/
def stripNewline (input : List UInt8) : List UInt8 :=
  let len := strlen input
  if len > 0 ∧ input[len - 1]? = some 10 then input.set (len - 1) 0 else input

/-- Where `client_run_interactive` is. -/
inductive Prompt
  | test
  | reading
  | left
  deriving DecidableEq

/-- The loop: the client, what is left on standard input, the strings that
    `handle_user_input` has been called with, and the messages it has sent. -/
structure Session where
  client : Client
  stdin : List UInt8
  prompt : Prompt
  calls : List (List UInt8)
  sent : List Message

def Session.start (client : Client) (stdin : List UInt8) : Session where
  client := client
  stdin := stdin
  prompt := .test
  calls := []
  sent := []

/-- What happens next. `fgets` returns a string, or `NULL` at the end of the
    input, when it is interrupted before it has read anything, and when it
    fails. -/
inductive SessionEvent
  | test
  | line (now : TimeT)
  | eof
  /-- Whether `check_signal` finds a signal is `signal`. -/
  | interrupted (signal : Bool)
  | error
  /-- Another thread, or a signal handler, calls `client_stop`. -/
  | stopped

/-- `fgets` has returned a string. -/
def SessionEvent.reads : SessionEvent → Bool
  | .line _ => true
  | _ => false

def sessionStep (s : Session) : SessionEvent → Option Session
  | .test =>
    if s.prompt = .test then
      some { s with prompt := if s.client.is_running then .reading else .left }
    else none
  | .line now =>
    if s.prompt = .reading then
      -- `fgets` returns a string unless the input has ended.
      (fgets BUFFER_SIZE s.stdin).map fun got =>
        let input := stripNewline got.1
        let out := handle_user_input s.client input now
        { client := out.1
          stdin := got.2
          prompt := .test
          calls := s.calls ++ [cstr input]
          sent := s.sent ++ out.2 }
    else none
  | .eof =>
    if s.prompt = .reading ∧ s.stdin = [] then some { s with prompt := .left } else none
  | .interrupted signal =>
    if s.prompt = .reading then some { s with prompt := if signal then .left else .test } else none
  | .error => if s.prompt = .reading then some { s with prompt := .left } else none
  | .stopped => some { s with client := client_stop s.client }

/-- The strings fit into the copies of `handle_user_input`, with their
    terminators. -/
def FitsCopy (s : Session) : Prop := ∀ input ∈ s.calls, strlen input + 1 ≤ MAX_MESSAGE_SIZE

/-- What is read ends soon: at a newline, a zero byte or the end of the input. -/
def ShortLine (s : Session) (e : SessionEvent) : Prop :=
  e.reads = true → strlen (s.stdin.takeWhile (· ≠ 10)) < MAX_MESSAGE_SIZE

/-- The strings are those of the lines read so far, one call for each. What is
    not read yet follows the last of them. -/
def OnePerLine (text : List UInt8) (s : Session) : Prop :=
  ∃ lines : List (List UInt8), (∀ line ∈ lines, 10 ∉ line) ∧
    text = unlines 10 lines ++ s.stdin ∧ s.calls = lines.map cstr

/-- There is a newline in what `fgets` can store. -/
def WholeLine (s : Session) (e : SessionEvent) : Prop :=
  e.reads = true → 10 ∈ s.stdin.take (BUFFER_SIZE - 1)

instance (s : Session) (e : SessionEvent) : Decidable (ShortLine s e) :=
  inferInstanceAs (Decidable (_ → _))

instance (s : Session) (e : SessionEvent) : Decidable (WholeLine s e) :=
  inferInstanceAs (Decidable (_ → _))

/-- The input has been cut into pieces, of which the strings are made. -/
def CutInto (text : List UInt8) (s : Session) (pieces : List (List UInt8)) : Prop :=
  text = pieces.flatten ++ s.stdin ∧ s.calls = pieces.map (fun p => cstr (stripNewline p)) ∧
    ∀ p ∈ pieces, 10 ∉ p ∨ Terminated 10 p

section Reading

variable {size : Nat} {stdin input rest : List UInt8}

/-- `fgets` stores a line with its newline, or something without a newline when
    there is none in what it can store. -/
theorem fgets_cases (h : fgets size stdin = some (input, rest)) :
    input ++ rest = stdin ∧
      (10 ∉ input ∧ 10 ∉ stdin.take (size - 1) ∧
          input = (stdin.takeWhile (· ≠ 10)).take (size - 1) ∨
        ∃ line, 10 ∉ line ∧ input = line ++ [10] ∧ 10 ∈ stdin.take (size - 1) ∧
          line = (stdin.takeWhile (· ≠ 10)).take (size - 1)) := by
  unfold fgets at h
  simp only [] at h
  split_ifs at h with hnil
  rw [Option.some.injEq, Prod.mk.injEq] at h
  rcases h with ⟨hinput, hrest⟩
  refine ⟨by rw [← hinput, ← hrest, List.take_append_drop], ?_⟩
  rcases firstLine_cases 10 stdin with ⟨line, tail, hline, htake, hstdin, htail⟩
  rw [htake] at hinput ⊢
  by_cases hfull : size - 1 ≤ line.length
  · -- The buffer is full before the line ends.
    rw [Nat.min_eq_left (by omega), hstdin, List.take_append_of_le_length hfull] at hinput
    rw [hstdin, List.take_append_of_le_length hfull]
    have hno : 10 ∉ line.take (size - 1) := fun hmem => hline (List.mem_of_mem_take hmem)
    exact Or.inl ⟨hinput ▸ hno, hno, hinput.symm⟩
  · rw [Nat.min_eq_right (by omega), hstdin] at hinput
    have hwhole : line.take (size - 1) = line := List.take_of_length_le (by omega)
    rw [hwhole, hstdin, List.take_append, hwhole]
    rcases htail with rfl | ⟨tail, rfl⟩
    · -- The input ends with the line.
      rw [List.append_nil, List.take_of_length_le (Nat.le_succ _)] at hinput
      rw [List.take_nil, List.append_nil]
      exact Or.inl ⟨hinput ▸ hline, hline, hinput.symm⟩
    · rw [List.take_append, List.take_of_length_le (Nat.le_succ _), Nat.add_sub_cancel_left,
        List.take_succ_cons, List.take_zero] at hinput
      refine Or.inr ⟨line, hline, hinput.symm, ?_, rfl⟩
      have hpos : size - 1 - line.length = size - 1 - line.length - 1 + 1 := by omega
      rw [hpos, List.take_succ_cons]
      exact List.mem_append_right _ List.mem_cons_self

/-- Without a newline in it the string is handed on as it is. -/
theorem typed_same (h : 10 ∉ cstr input) : cstr (stripNewline input) = cstr input := by
  unfold stripNewline
  simp only []
  rw [if_neg]
  rintro ⟨hpos, hlast⟩
  refine h ?_
  -- The byte in front of the terminator is one of the string.
  rcases List.takeWhile_prefix (l := input) (· ≠ (0 : UInt8)) with ⟨tail, htail⟩
  have hsplit : input = cstr input ++ tail := htail.symm
  have hlt : strlen input - 1 < (cstr input).length := Nat.sub_lt hpos Nat.one_pos
  have hbyte : (cstr input ++ tail)[strlen input - 1]? = (cstr input)[strlen input - 1]? :=
    List.getElem?_append_left hlt
  rw [← hsplit, hlast] at hbyte
  exact List.mem_of_getElem? hbyte.symm

/-- A line loses its newline. -/
theorem typed_line {line : List UInt8} (hline : 10 ∉ line) :
    cstr (stripNewline (line ++ [10])) = cstr line := by
  by_cases hzero : ∀ c ∈ line, c ≠ 0
  · -- The string is the line with its newline.
    have hno : ∀ c ∈ line ++ [10], c ≠ 0 := by
      intro c hc
      rcases List.mem_append.mp hc with hc | hc
      · exact hzero c hc
      · rw [List.mem_singleton.mp hc]
        decide
    have hlen : strlen (line ++ [10]) = line.length + 1 := by
      rw [strlen, cstr_of_no_zero hno, List.length_append]
      rfl
    unfold stripNewline
    simp only [hlen, Nat.add_sub_cancel]
    rw [if_pos ⟨Nat.succ_pos _, List.getElem?_concat_length⟩,
      List.set_append_right _ _ (Nat.le_refl _), Nat.sub_self]
    exact (cstr_append_zero hzero []).trans (cstr_of_no_zero hzero).symm
  · -- A zero byte in the line hides the newline.
    push Not at hzero
    have hstop : cstr (line ++ [10]) = cstr line := by
      rcases hzero with ⟨c, hc, hnull⟩
      unfold cstr
      rw [List.takeWhile_append, if_neg]
      intro hall
      have hsame := (List.takeWhile_prefix _).eq_of_length hall
      have hbyte := List.takeWhile_eq_self_iff.mp hsame c hc
      rw [hnull] at hbyte
      exact absurd hbyte (by decide)
    -- The string is what stands in front of it.
    rw [typed_same, hstop]
    rw [hstop]
    exact fun hmem => hline (List.takeWhile_subset _ hmem)

/-- What is handed on is the beginning of the next line, as far as `fgets` can
    store it and up to the first zero byte. -/
theorem typed_eq (h : fgets size stdin = some (input, rest)) :
    cstr (stripNewline input) = (cstr (stdin.takeWhile (· ≠ 10))).take (size - 1) := by
  have hcut : (cstr (stdin.takeWhile (· ≠ 10))).take (size - 1)
      = cstr ((stdin.takeWhile (· ≠ 10)).take (size - 1)) := List.take_takeWhile
  rcases (fgets_cases h).2 with ⟨hno, _, hinput⟩ | ⟨line, hline, hinput, _, hbegin⟩
  · rw [hcut, ← hinput]
    exact typed_same fun hmem => hno (List.takeWhile_subset _ hmem)
  · rw [hcut, ← hbegin, hinput]
    exact typed_line hline

end Reading

section Runs

variable {s s' : Session} {e : SessionEvent} {text : List UInt8}

/-- A step hands on a string that `fgets` has returned, or none. -/
theorem sessionStep_cases (hstep : sessionStep s e = some s') :
    (e.reads = true ∧ ∃ input, fgets BUFFER_SIZE s.stdin = some (input, s'.stdin) ∧
        s'.calls = s.calls ++ [cstr (stripNewline input)]) ∨
      (e.reads = false ∧ s'.calls = s.calls ∧ s'.stdin = s.stdin) := by
  cases e with
  | line now =>
      simp only [sessionStep] at hstep
      split_ifs at hstep with hprompt
      rcases Option.map_eq_some_iff.mp hstep with ⟨got, hgot, rfl⟩
      exact Or.inl ⟨rfl, got.1, hgot, rfl⟩
  | stopped =>
      simp only [sessionStep, Option.some.injEq] at hstep
      subst hstep
      exact Or.inr ⟨rfl, rfl, rfl⟩
  | _ =>
      simp only [sessionStep] at hstep
      split_ifs at hstep
      all_goals
        rw [Option.some.injEq] at hstep
        subst hstep
        exact Or.inr ⟨rfl, rfl, rfl⟩

/-- A string that fits comes from a line that does: the buffer of `fgets` is
    the larger one. -/
theorem fitsCopy_step (hstep : sessionStep s e = some s') :
    FitsCopy s' ↔ FitsCopy s ∧ ShortLine s e := by
  have hsizes : MAX_MESSAGE_SIZE < BUFFER_SIZE := by decide
  unfold FitsCopy ShortLine
  rcases sessionStep_cases hstep with ⟨hreads, input, hread, hcalls⟩ | ⟨hreads, hcalls, _⟩
  · have hlen : strlen (cstr (stripNewline input))
        = min (BUFFER_SIZE - 1) (strlen (s.stdin.takeWhile (· ≠ 10))) := by
      rw [strlen, cstr_cstr, typed_eq hread, List.length_take, strlen]
    -- The limit of the buffer is beyond that of the copy, so it does not help.
    rw [hcalls, forall_prop_of_true hreads]
    simp only [List.forall_mem_append, List.forall_mem_singleton, hlen]
    refine and_congr_right fun _ => ?_
    omega
  · rw [hcalls, hreads]
    exact ⟨fun h => ⟨h, fun hc => (by cases hc)⟩, fun h => h.1⟩

/-- Every string handed on fits into its copy exactly when every line that is
    read is short, whatever the input and whatever else happens. -/
theorem copies_fit_iff (client : Client) (stdin : List UInt8) (events : List SessionEvent)
    (s : Session) (hrun : run sessionStep (Session.start client stdin) events = some s) :
    FitsCopy s ↔ Meets sessionStep ShortLine (Session.start client stdin) events := by
  have hstart : FitsCopy (Session.start client stdin) := List.forall_mem_nil _
  have hiff : FitsCopy s ↔ FitsCopy (Session.start client stdin) ∧
      Meets sessionStep ShortLine (Session.start client stdin) events :=
    run_iff (fun _ _ _ _ _ => trivial) (fun _ _ _ _ hstep => fitsCopy_step hstep) events trivial
      hrun
  rw [hiff]
  exact and_iff_right hstart

/-- Pieces are the lines exactly when each of them is one. There are as many
    newlines in a text as it has lines, and as many pieces as strings. -/
theorem onePerLine_iff {pieces : List (List UInt8)} (h : CutInto text s pieces) :
    OnePerLine text s ↔ ∀ p ∈ pieces, Terminated 10 p := by
  rcases h with ⟨htext, hcalls, hpieces⟩
  constructor
  · rintro ⟨lines, hlines, hunlines, hstrings⟩
    -- The text has been read as far in either view, so it has as many newlines.
    have hsame : pieces.flatten = unlines 10 lines :=
      List.append_cancel_right (htext.symm.trans hunlines)
    have hnumber : pieces.length = lines.length := by
      have hlen := congrArg List.length (hcalls.symm.trans hstrings)
      rw [List.length_map, List.length_map] at hlen
      exact hlen
    refine (terminated_of_count hpieces).2 ?_
    rw [hsame, count_unlines hlines, hnumber]
  · intro hall
    -- The lines are the pieces without their newlines.
    refine ⟨pieces.map List.dropLast, ?_, ?_, ?_⟩
    · intro line hline
      rcases List.mem_map.mp hline with ⟨p, hp, rfl⟩
      exact dropLast_of_terminated (hall p hp)
    · rw [unlines_of_terminated hall]
      exact htext
    · rw [hcalls, List.map_map]
      refine List.map_congr_left fun p hp => ?_
      rcases hall p hp with ⟨line, hline, rfl⟩
      rw [Function.comp_apply, List.dropLast_concat]
      exact typed_line hline

/-- One more piece, or none. -/
theorem cutInto_step {pieces : List (List UInt8)} (h : CutInto text s pieces)
    (hstep : sessionStep s e = some s') :
    (e.reads = true ∧ ∃ input, fgets BUFFER_SIZE s.stdin = some (input, s'.stdin) ∧
        CutInto text s' (pieces ++ [input])) ∨
      (e.reads = false ∧ CutInto text s' pieces) := by
  rcases h with ⟨htext, hcalls, hpieces⟩
  rcases sessionStep_cases hstep with ⟨hreads, input, hread, hcalls'⟩ | ⟨hreads, hcalls', hstdin⟩
  · refine Or.inl ⟨hreads, input, hread, ?_, ?_, ?_⟩
    · -- What has been stored is no longer to be read.
      rw [htext, List.flatten_append, List.flatten_singleton, List.append_assoc,
        (fgets_cases hread).1]
    · rw [hcalls', hcalls, List.map_append, List.map_singleton]
    · intro p hp
      rcases List.mem_append.mp hp with hp | hp
      · exact hpieces p hp
      · rw [List.mem_singleton.mp hp]
        exact (fgets_cases hread).2.imp (fun hpart => hpart.1)
          fun ⟨line, hline, hinput, _⟩ => ⟨line, hline, hinput⟩
  · exact Or.inr ⟨hreads, by rw [hstdin]; exact htext, hcalls'.trans hcalls, hpieces⟩

/-- The pieces stay lines exactly as long as each holds a newline. -/
theorem onePerLine_step (h : ∃ pieces, CutInto text s pieces)
    (hstep : sessionStep s e = some s') :
    OnePerLine text s' ↔ OnePerLine text s ∧ WholeLine s e := by
  rcases h with ⟨pieces, hcut⟩
  unfold WholeLine
  rcases cutInto_step hcut hstep with ⟨hreads, input, hread, hcut'⟩ | ⟨hreads, hcut'⟩
  · -- The piece is a line if a newline has stopped `fgets`.
    have hnewline : Terminated 10 input ↔ 10 ∈ s.stdin.take (BUFFER_SIZE - 1) := by
      rcases (fgets_cases hread).2 with ⟨hno, hnone, _⟩ | ⟨line, hline, hinput, hsome, _⟩
      · refine iff_of_false ?_ hnone
        rintro ⟨line, _, rfl⟩
        exact hno (List.mem_append_right _ List.mem_cons_self)
      · exact iff_of_true ⟨line, hline, hinput⟩ hsome
    rw [onePerLine_iff hcut', onePerLine_iff hcut, List.forall_mem_append,
      List.forall_mem_singleton, hnewline, forall_prop_of_true hreads]
  · rw [onePerLine_iff hcut', onePerLine_iff hcut, hreads]
    exact ⟨fun hall => ⟨hall, fun hc => (by cases hc)⟩, fun hall => hall.1⟩

/-- The strings handed on are those of the lines, one call for each in order,
    exactly when there is a newline in what `fgets` can store whenever it
    returns one. At the end of the input these are all the lines. -/
theorem one_call_per_line_iff (client : Client) (text : List UInt8) (events : List SessionEvent)
    (s : Session) (hrun : run sessionStep (Session.start client text) events = some s) :
    OnePerLine text s ↔ Meets sessionStep WholeLine (Session.start client text) events := by
  have hcut : CutInto text (Session.start client text) [] :=
    ⟨rfl, rfl, List.forall_mem_nil _⟩
  have hkept : ∀ v e w, (∃ pieces, CutInto text v pieces) → sessionStep v e = some w →
      ∃ pieces, CutInto text w pieces := by
    rintro v e w ⟨pieces, hv⟩ hstep
    rcases cutInto_step hv hstep with ⟨_, input, _, hw⟩ | ⟨_, hw⟩
    · exact ⟨_, hw⟩
    · exact ⟨pieces, hw⟩
  have hiff : OnePerLine text s ↔ OnePerLine text (Session.start client text) ∧
      Meets sessionStep WholeLine (Session.start client text) events :=
    run_iff hkept (fun _ _ _ hinv hstep => onePerLine_step hinv hstep) events ⟨[], hcut⟩ hrun
  rw [hiff]
  exact and_iff_right ((onePerLine_iff hcut).mpr (List.forall_mem_nil _))

/-- An ordinary line, by which the list is asked for, fits. -/
theorem copies_fit_list : ∃ s, run sessionStep (Session.start annClient (bytes "list" ++ [10]))
      [.test, .line 0, .test, .eof] = some s ∧ s.calls = [bytes "list"] ∧ FitsCopy s := by
  have hend : (run sessionStep (Session.start annClient (bytes "list" ++ [10]))
      [.test, .line 0, .test, .eof]).map (fun s => s.calls) = some [bytes "list"] := by
    decide +kernel
  rcases Option.map_eq_some_iff.mp hend with ⟨s, hrun, hcalls⟩
  exact ⟨s, hrun, hcalls, (copies_fit_iff annClient _ _ s hrun).mpr (by decide +kernel)⟩

/-- A line of 1024 bytes does not fit into the copy. -/
theorem copy_too_small : ∃ s,
    run sessionStep (Session.start annClient (List.replicate 1024 97 ++ [10])) [.test, .line 0]
      = some s ∧ ¬ FitsCopy s := by
  have hend : (run sessionStep (Session.start annClient (List.replicate 1024 97 ++ [10]))
      [.test, .line 0]).map (fun s => s.calls.map strlen) = some [1024] := by decide +kernel
  rcases Option.map_eq_some_iff.mp hend with ⟨s, hrun, hlengths⟩
  refine ⟨s, hrun, fun hfits => ?_⟩
  have hmem : 1024 ∈ s.calls.map strlen := by rw [hlengths]; exact List.mem_singleton_self _
  rcases List.mem_map.mp hmem with ⟨input, hinput, hlen⟩
  have hshort := hfits input hinput
  rw [hlen] at hshort
  exact absurd hshort (by decide)

/-- Two lines are two calls. -/
theorem one_call_per_line_two : ∃ s,
    run sessionStep (Session.start annClient (bytes "list" ++ 10 :: (bytes "quit" ++ [10])))
      [.test, .line 0, .test, .line 0, .test] = some s ∧
    s.calls = [bytes "list", bytes "quit"] ∧
    OnePerLine (bytes "list" ++ 10 :: (bytes "quit" ++ [10])) s := by
  have hend : (run sessionStep
      (Session.start annClient (bytes "list" ++ 10 :: (bytes "quit" ++ [10])))
      [.test, .line 0, .test, .line 0, .test]).map (fun s => s.calls)
        = some [bytes "list", bytes "quit"] := by decide +kernel
  rcases Option.map_eq_some_iff.mp hend with ⟨s, hrun, hcalls⟩
  exact ⟨s, hrun, hcalls, (one_call_per_line_iff annClient _ _ s hrun).mpr (by decide +kernel)⟩

/-- A message for everybody that is so long that its end is a piece of its
    own. -/
def longMessage : List UInt8 := bytes "2all " ++ (List.replicate 2042 97 ++ (bytes "quit" ++ [10]))

/-- The end of the message is executed, and stops the client. -/
theorem text_executed : ∃ s,
    run sessionStep (Session.start annClient longMessage) [.test, .line 0, .test, .line 0]
      = some s ∧
    s.calls = [bytes "2all " ++ List.replicate 2042 97, bytes "quit"] ∧
    s.sent.map (fun msg => msg.type) = [MessageType.MSG_2ALL.code, MessageType.MSG_STOP.code] ∧
    s.client.is_running = false ∧ ¬ OnePerLine longMessage s := by
  have hend : (run sessionStep (Session.start annClient longMessage)
      [.test, .line 0, .test, .line 0]).map
        (fun s => (s.calls, s.sent.map fun msg => msg.type, s.client.is_running))
      = some ([bytes "2all " ++ List.replicate 2042 97, bytes "quit"],
        [MessageType.MSG_2ALL.code, MessageType.MSG_STOP.code], false) := by decide +kernel
  rcases Option.map_eq_some_iff.mp hend with ⟨s, hrun, hs⟩
  simp only [Prod.mk.injEq] at hs
  rcases hs with ⟨hcalls, hsent, hstopped⟩
  refine ⟨s, hrun, hcalls, hsent, hstopped, ?_⟩
  rintro ⟨lines, hlines, htext, hstrings⟩
  -- There is one newline in the text, and there have been two calls.
  have hnumber : lines.length = 2 := by
    have hlen := congrArg List.length (hstrings.symm.trans hcalls)
    rw [List.length_map] at hlen
    exact hlen
  have hone : longMessage.count 10 = 1 := by decide +kernel
  rw [htext, List.count_append, count_unlines hlines, hnumber] at hone
  omega

end Runs

end Chat

end OsLabs
