import Mathlib.Data.List.Nodup
import OsLabs.Core.Run
import OsLabs.Core.Tally

/-!
# The Catcher and Its Senders

`catcher` and `sender` of lab4 as a transition system of one catcher and any
number of senders, from where they have set their handlers. A sender sends
`SIGUSR1` with a mode to the catcher and waits for a `SIGUSR1` in return, which
the handler of the catcher sends to whoever the signal has come from.

A signal that is sent while one of its kind is pending is lost, with the mode it
carries. A sender that loses its signal this way waits for ever. So does one
whose confirmation comes after it has found `confirmed` to be 0 and before it
sleeps in `sigsuspend`, which then waits for another signal. In mode 5 the
catcher exits without a confirmation. `who_waits` says that there is no other
reason, and `all_confirmed` that without these every sender ends.

The handler is two steps, with `sigqueue` in the second; `SIGUSR1` is blocked
until it returns. It may come anywhere in the loop, also after the loop has
decided to print a number. Whether `sigqueue` fails once the catcher has exited
depends on whether somebody has waited for it, so it is part of the event.

## Main definitions

* `Disposition`, `Line`: What `Ctrl+C` does, and what the catcher prints.
* `Catcher`, `Loop`, `Sender`, `State`: Where the processes are.
* `handle_sigusr1`, `step`, `start`: The transition system.
* `dispositionOf`, `lineOf`: What a mode does.
* `Sound`: What has been handled, and who has been confirmed.
* `Event.forced`, `Quiet`: The steps the senders and the handlers take, and when
  there are none left.
* `Timely`: No signal is lost, and none comes too early.

## Theorems

* `handle_sigusr1_eq`: What the handler does.
* `sound_step`: Every step keeps the invariant.
* `quiet_iff`, `stopped_step`: Where the processes are then, and that they stay.
* `kept_step`: What timely steps keep.
* `left_step`: A forced step leaves fewer of them.
* `handled_once`: Requests, confirmations, `Ctrl+C` and the lines printed.
* `who_waits`: Who waits for ever.
* `all_confirmed`: When nobody does.
-/

namespace OsLabs

namespace Lab4

inductive Disposition
  | SIG_DFL
  | SIG_IGN
  | reaction
  deriving DecidableEq

/-- A line that the catcher prints. -/
inductive Line
  | requests (request_count : Nat)
  | numbers
  | ignoring
  | reacting
  | killing
  | undefined (mode : Int)
  | number (num : Nat)
  | pressed
  deriving DecidableEq

inductive Catcher (n : Nat)
  | main
  /-- In the handler, at `sigqueue`. -/
  | confirming (sender_pid : Fin n)
  | exited
  deriving DecidableEq

/-- Where the loop of the catcher is. -/
inductive Loop
  | test
  /-- About to print a number. -/
  | printing
  /-- About to call `sigsuspend`. -/
  | suspending
  | suspended
  deriving DecidableEq

inductive Sender
  /-- Before `sigqueue`. -/
  | start
  /-- At the condition of the loop. -/
  | test
  /-- Past it, about to call `sigsuspend`. -/
  | suspending
  | suspended
  | done
  | failed
  deriving DecidableEq

structure State (n : Nat) where
  catcher : Catcher n
  loop : Loop
  /-- The signal that is pending for the catcher. -/
  pending : Option (Fin n)
  request_count : Nat
  current_mode : Int
  ctrl_c_mode : Int
  print_numbers : Bool
  num : Nat
  sigint : Disposition
  printed : List Line
  sender : Fin n → Sender
  confirmed : Fin n → Bool
  /-- A signal is pending for the sender. -/
  signalled : Fin n → Bool
  /-- The requests that have been handled, in order. -/
  handled : List (Fin n)

inductive Event (n : Nat)
  /-- `sigqueue` of the sender. -/
  | request (i : Fin n) (fails : Bool)
  /-- The handler of the catcher begins. -/
  | catch_signal
  | confirm
  /-- A step of the loop. -/
  | loop
  /-- `Ctrl+C`. -/
  | sigint
  | test (i : Fin n)
  | suspend (i : Fin n)
  /-- The handler of the sender. -/
  | deliver (i : Fin n)
  deriving DecidableEq

/-- `sigsuspend` returns when a handler has. -/
def Loop.wake : Loop → Loop
  | .suspended => .test
  | loop => loop

section Program

variable {n : Nat} (mode : Fin n → Int)

/-- The `switch` of `handle_sigusr1`. -/
def switch (s : State n) (mode : Int) : State n :=
  if mode = 1 then
    { s with printed := s.printed ++ [.requests s.request_count], ctrl_c_mode := 0 }
  else if mode = 2 then
    { s with printed := s.printed ++ [.numbers], print_numbers := true, ctrl_c_mode := 0 }
  else if mode = 3 then
    { s with printed := s.printed ++ [.ignoring], ctrl_c_mode := 1, sigint := .SIG_IGN }
  else if mode = 4 then
    { s with printed := s.printed ++ [.reacting], ctrl_c_mode := 2, sigint := .reaction }
  else if mode = 5 then
    { s with printed := s.printed ++ [.killing], ctrl_c_mode := 0, catcher := .exited }
  else
    { s with printed := s.printed ++ [.undefined mode], ctrl_c_mode := 0 }

/-- The handler up to `sigqueue`, for a signal from the sender `i`. -/
def handle_sigusr1 (s : State n) (i : Fin n) : State n :=
  let s := switch { s with
    request_count := s.request_count + 1
    current_mode := mode i
    handled := s.handled ++ [i] } (mode i)
  if s.catcher = .exited then s
  else { s with
    sigint := if s.ctrl_c_mode = 0 then .SIG_DFL else s.sigint
    catcher := .confirming i }

def step (s : State n) : Event n → Option (State n)
  | .request i fails =>
      if s.sender i ≠ .start then none
      else if s.catcher ≠ .exited then
        -- Nothing is queued if a signal is pending.
        some { s with
          pending := some (s.pending.getD i)
          sender := Function.update s.sender i .test }
      else some { s with sender := Function.update s.sender i (if fails then .failed else .test) }
  | .catch_signal =>
      match s.catcher, s.pending with
      | .main, some i => some (handle_sigusr1 mode { s with pending := none } i)
      | _, _ => none
  | .confirm =>
      match s.catcher with
      | .confirming i =>
          some { s with
            catcher := .main
            loop := s.loop.wake
            signalled := Function.update s.signalled i true }
      | _ => none
  | .loop =>
      if s.catcher ≠ .main then none
      else match s.loop with
        | .test =>
            if s.print_numbers = true ∧ s.current_mode = 2 then some { s with loop := .printing }
            else some { s with loop := .suspending }
        | .printing => some { s with
            loop := .test
            printed := s.printed ++ [.number s.num]
            num := s.num + 1 }
        | .suspending => some { s with loop := .suspended }
        | .suspended => none
  | .sigint =>
      if s.catcher = .exited then none
      else match s.sigint with
        | .SIG_DFL => some { s with catcher := .exited }
        | .SIG_IGN => some s
        | .reaction => some { s with loop := s.loop.wake, printed := s.printed ++ [.pressed] }
  | .test i =>
      if s.sender i = .test then
        some { s with
          sender := Function.update s.sender i (if s.confirmed i then .done else .suspending) }
      else none
  | .suspend i =>
      if s.sender i = .suspending then
        some { s with sender := Function.update s.sender i .suspended }
      else none
  | .deliver i =>
      if s.signalled i = true ∧ s.sender i ≠ .done ∧ s.sender i ≠ .failed then
        some { s with
          signalled := Function.update s.signalled i false
          confirmed := Function.update s.confirmed i true
          sender := if s.sender i = .suspended then Function.update s.sender i .test else s.sender }
      else none

def start (n : Nat) : State n where
  catcher := .main
  loop := .test
  pending := none
  request_count := 0
  current_mode := 0
  ctrl_c_mode := 0
  print_numbers := false
  num := 1
  sigint := .SIG_DFL
  printed := []
  sender _ := .start
  confirmed _ := false
  signalled _ := false
  handled := []

end Program

/-- What `Ctrl+C` does after a request with the mode. -/
def dispositionOf (mode : Int) : Disposition :=
  if mode = 3 then .SIG_IGN else if mode = 4 then .reaction else .SIG_DFL

/-- What is printed for a request. -/
def lineOf (request_count : Nat) (mode : Int) : Line :=
  if mode = 1 then .requests request_count
  else if mode = 2 then .numbers
  else if mode = 3 then .ignoring
  else if mode = 4 then .reacting
  else if mode = 5 then .killing
  else .undefined mode

section Handler

variable {n : Nat} (mode : Fin n → Int)

/-- The handler as a whole. -/
theorem handle_sigusr1_eq (s : State n) (i : Fin n) (hcatcher : s.catcher ≠ .exited) :
    ∃ ctrl_c_mode, handle_sigusr1 mode s i = { s with
      request_count := s.request_count + 1
      current_mode := mode i
      handled := s.handled ++ [i]
      printed := s.printed ++ [lineOf (s.request_count + 1) (mode i)]
      print_numbers := s.print_numbers || decide (mode i = 2)
      ctrl_c_mode := ctrl_c_mode
      sigint := if mode i = 5 then s.sigint else dispositionOf (mode i)
      catcher := if mode i = 5 then .exited else .confirming i } := by
  unfold handle_sigusr1 switch lineOf dispositionOf
  by_cases h1 : mode i = 1
  · exact ⟨0, by simp [h1, hcatcher]⟩
  by_cases h2 : mode i = 2
  · exact ⟨0, by simp [h2, hcatcher]⟩
  by_cases h3 : mode i = 3
  · exact ⟨1, by simp [h3, hcatcher]⟩
  by_cases h4 : mode i = 4
  · exact ⟨2, by simp [h4, hcatcher]⟩
  by_cases h5 : mode i = 5
  · exact ⟨0, by simp [h5]⟩
  · exact ⟨0, by simp [h1, h2, h3, h4, h5, hcatcher]⟩

end Handler

/-- The number in a line that says how many requests there have been. -/
def Line.requests? : Line → Option Nat
  | .requests request_count => some request_count
  | _ => none

/-- The number in a line of the loop. -/
def Line.number? : Line → Option Nat
  | .number num => some num
  | _ => none

/-- The numbers of the requests with mode 1. -/
def askedCounts {n : Nat} (mode : Fin n → Int) (handled : List (Fin n)) : List Nat :=
  (handled.zipIdx 1).filterMap fun (i, k) => if mode i = 1 then some k else none

/-- The sender has sent its signal and has not ended. -/
def Sender.waits : Sender → Bool
  | .test => true
  | .suspending => true
  | .suspended => true
  | _ => false

structure Sound {n : Nat} (mode : Fin n → Int) (s : State n) : Prop where
  count_eq : s.request_count = s.handled.length
  nodup : s.handled.Nodup
  sigint_eq : s.catcher ≠ .exited →
    s.sigint = (s.handled.getLast?.map fun i => dispositionOf (mode i)).getD .SIG_DFL
  requests_eq : s.printed.filterMap Line.requests? = askedCounts mode s.handled
  numbers_eq : s.printed.filterMap Line.number? = List.range' 1 (s.num - 1)
  num_pos : 0 < s.num
  /-- A request that is pending has not been handled, and its sender waits. -/
  pending : ∀ i, s.pending = some i → i ∉ s.handled ∧ (s.sender i).waits = true
  sent : ∀ i ∈ s.handled, (s.sender i).waits = true ∨ s.sender i = .done
  /-- Who is confirmed has been handled. -/
  answered : ∀ i, s.confirmed i = true ∨ s.signalled i = true ∨ s.catcher = .confirming i →
    i ∈ s.handled ∧ mode i ≠ 5
  /-- Who has been handled is confirmed, or will be unless the catcher exits. -/
  answers : ∀ i ∈ s.handled,
    s.catcher = .exited ∨ s.catcher = .confirming i ∨ s.signalled i = true ∨ s.confirmed i = true
  done : ∀ i, s.sender i = .done → s.confirmed i = true
  failed : ∀ i, s.sender i = .failed → s.catcher = .exited

/-- A step that a process takes by itself sooner or later. The loop of the catcher
    may go round for ever, and the user need not press `Ctrl+C`. -/
def Event.forced {n : Nat} : Event n → Bool
  | .loop => false
  | .sigint => false
  | _ => true

/-- No sender will move any more. -/
def Quiet {n : Nat} (mode : Fin n → Int) (s : State n) : Prop :=
  ∀ e : Event n, e.forced = true → step mode s e = none

/-- A signal is sent when none is pending and the catcher is there, a confirmation
    does not come just before `sigsuspend`, and `Ctrl+C` does not end the catcher. -/
def Timely {n : Nat} (s : State n) : Event n → Prop
  | .request _ _ => s.catcher ≠ .exited ∧ s.pending = none
  | .deliver i => s.sender i ≠ .suspending
  | .sigint => s.sigint ≠ .SIG_DFL
  | _ => True

instance {n : Nat} (s : State n) : ∀ e, Decidable (Timely s e)
  | .request _ _ => inferInstanceAs (Decidable (_ ∧ _))
  | .deliver _ => inferInstanceAs (Decidable (_ ≠ _))
  | .sigint => inferInstanceAs (Decidable (_ ≠ _))
  | .catch_signal => inferInstanceAs (Decidable True)
  | .confirm => inferInstanceAs (Decidable True)
  | .loop => inferInstanceAs (Decidable True)
  | .test _ => inferInstanceAs (Decidable True)
  | .suspend _ => inferInstanceAs (Decidable True)

/-- The steps a sender has left, those of others on its behalf apart. -/
def Sender.left : Sender → Nat
  | .start => 8
  | .test => 2
  | .suspending => 1
  | _ => 0

/-- The steps that a pending request leads to. -/
def pendingLeft {n : Nat} : Option (Fin n) → Nat
  | some _ => 5
  | none => 0

def Catcher.left {n : Nat} : Catcher n → Nat
  | .confirming _ => 4
  | _ => 0

/-- How many forced steps there will be at most. -/
def left {n : Nat} (s : State n) : Nat :=
  sumOf (fun _ => Sender.left) s.sender + 3 * countOf id s.signalled + pendingLeft s.pending +
    s.catcher.left

section Invariant

variable {n : Nat} {mode : Fin n → Int} {s t : State n}

theorem sound_start : Sound mode (start n) where
  count_eq := rfl
  nodup := List.nodup_nil
  sigint_eq _ := rfl
  requests_eq := rfl
  numbers_eq := rfl
  num_pos := Nat.one_pos
  pending i h := by cases h
  sent i h := by cases h
  answered i h := by simp [start] at h
  answers i h := by cases h
  done i h := by cases h
  failed i h := by cases h

/-- A line that no number is in. -/
theorem requests?_lineOf (request_count : Nat) (m : Int) :
    (lineOf request_count m).requests? = if m = 1 then some request_count else none := by
  unfold lineOf
  split_ifs <;> rfl

theorem number?_lineOf (request_count : Nat) (m : Int) :
    (lineOf request_count m).number? = none := by
  unfold lineOf
  split_ifs <;> rfl

theorem askedCounts_append (handled : List (Fin n)) (i : Fin n) :
    askedCounts mode (handled ++ [i]) =
      askedCounts mode handled ++
        (if mode i = 1 then some (handled.length + 1) else none).toList := by
  unfold askedCounts
  rw [List.zipIdx_append, List.filterMap_append, Nat.add_comm 1]
  congr 1

/-- A step of a sender that does not end it. -/
theorem waits_update {i j : Fin n} {place : Sender} (hwaits : (s.sender j).waits = true)
    (hplace : place.waits = true) : (Function.update s.sender i place j).waits = true := by
  by_cases hj : j = i
  · rw [hj, Function.update_self]
    exact hplace
  · rw [Function.update_of_ne hj]
    exact hwaits

/-- The same for those that have been handled. -/
theorem sent_update {i j : Fin n} {place : Sender}
    (hsent : (s.sender j).waits = true ∨ s.sender j = .done)
    (hplace : place.waits = true ∨ place = .done) :
    (Function.update s.sender i place j).waits = true ∨
      Function.update s.sender i place j = .done := by
  by_cases hj : j = i
  · rw [hj, Function.update_self]
    exact hplace
  · rw [Function.update_of_ne hj]
    exact hsent

theorem not_sent {i : Fin n} (h : Sound mode s) (hstart : s.sender i = .start) :
    i ∉ s.handled ∧ s.pending ≠ some i := by
  constructor
  · intro hi
    rcases h.sent i hi with hw | hd
    · rw [hstart] at hw
      cases hw
    · rw [hstart] at hd
      cases hd
  · intro hi
    have hw := (h.pending i hi).2
    rw [hstart] at hw
    cases hw

/-- A sender whose signal is still to come moves on. -/
theorem sound_sender (h : Sound mode s) {i : Fin n} {place : Sender}
    (hplace : place.waits = true ∨ place = .done ∧ s.confirmed i = true) :
    Sound mode { s with sender := Function.update s.sender i place } := by
  refine { h with pending := fun j hj => ?_, sent := fun j hj => ?_, done := fun j hj => ?_,
                  failed := fun j hj => ?_ }
  · refine ⟨(h.pending j hj).1, ?_⟩
    rcases hplace with hw | ⟨_, hconfirmed⟩
    · exact waits_update (h.pending j hj).2 hw
    · -- Whoever is confirmed has been handled, and is not pending.
      have hne : j ≠ i := fun hji =>
        (h.pending j hj).1 (hji ▸ (h.answered i (Or.inl hconfirmed)).1)
      change (Function.update s.sender i place j).waits = true
      rw [Function.update_of_ne hne]
      exact (h.pending j hj).2
  · exact sent_update (h.sent j hj) (hplace.imp id And.left)
  · change Function.update s.sender i place j = .done at hj
    by_cases hji : j = i
    · rw [hji, Function.update_self] at hj
      rw [hji]
      rcases hplace with hw | ⟨_, hconfirmed⟩
      · rw [hj] at hw
        cases hw
      · exact hconfirmed
    · rw [Function.update_of_ne hji] at hj
      exact h.done j hj
  · change Function.update s.sender i place j = .failed at hj
    by_cases hji : j = i
    · rw [hji, Function.update_self] at hj
      rw [hj] at hplace
      rcases hplace with hw | ⟨hd, _⟩
      · cases hw
      · cases hd
    · rw [Function.update_of_ne hji] at hj
      exact h.failed j hj

theorem sound_request (h : Sound mode s) {i : Fin n} {fails : Bool}
    (hstep : step mode s (.request i fails) = some t) : Sound mode t := by
  simp only [step] at hstep
  split_ifs at hstep with hstart hcatcher hfails
  · -- The signal is pending, or lost to the one that is.
    cases hstep
    have hstart := not_not.mp hstart
    rcases not_sent h hstart with ⟨hnew, hnone⟩
    have hsound : Sound mode { s with sender := Function.update s.sender i .test } :=
      sound_sender h (Or.inl rfl)
    refine { hsound with pending := fun j hj => ?_ }
    cases hpending : s.pending with
    | some k =>
        change some (s.pending.getD i) = some j at hj
        rw [hpending] at hj
        exact hsound.pending j (hpending.trans hj)
    | none =>
        change some (s.pending.getD i) = some j at hj
        rw [hpending] at hj
        cases hj
        refine ⟨hnew, ?_⟩
        change (Function.update s.sender i .test i).waits = true
        rw [Function.update_self]
        rfl
  all_goals
    cases hstep
  · -- The catcher has exited, and the sender has failed.
    have hstart := not_not.mp hstart
    rcases not_sent h hstart with ⟨hnew, hnone⟩
    refine { h with pending := fun j hj => ?_, sent := fun j hj => ?_, done := fun j hj => ?_,
                    failed := fun j _ => not_not.mp hcatcher }
    · have hne : j ≠ i := fun hji => hnone (hji ▸ hj)
      refine ⟨(h.pending j hj).1, ?_⟩
      change (Function.update s.sender i .failed j).waits = true
      rw [Function.update_of_ne hne]
      exact (h.pending j hj).2
    · have hne : j ≠ i := fun hji => hnew (hji ▸ hj)
      change (Function.update s.sender i .failed j).waits = true ∨
        Function.update s.sender i .failed j = .done
      rw [Function.update_of_ne hne]
      exact h.sent j hj
    · change Function.update s.sender i .failed j = .done at hj
      by_cases hji : j = i
      · rw [hji, Function.update_self] at hj
        cases hj
      · rw [Function.update_of_ne hji] at hj
        exact h.done j hj
  · exact sound_sender h (Or.inl rfl)

theorem sound_catch_signal (h : Sound mode s)
    (hstep : step mode s .catch_signal = some t) : Sound mode t := by
  simp only [step] at hstep
  split at hstep
  · rename_i i hcatcher hpending
    cases hstep
    have hfree : ({ s with pending := none } : State n).catcher ≠ .exited := by
      intro hexited
      rw [show s.catcher = .exited from hexited] at hcatcher
      cases hcatcher
    rcases handle_sigusr1_eq mode { s with pending := none } i hfree with ⟨c, heq⟩
    rcases h.pending i hpending with ⟨hnew, hwaits⟩
    rw [heq]
    refine ⟨?_, ?_, fun halive => ?_, ?_, ?_, h.num_pos, fun j hj => (by cases hj), ?_, ?_, ?_,
      h.done, fun j hj => ?_⟩
    · change s.request_count + 1 = (s.handled ++ [i]).length
      rw [List.length_append, List.length_singleton, h.count_eq]
    · exact List.nodup_append.mpr ⟨h.nodup, List.nodup_singleton i, fun a ha b hb => by
        rw [List.mem_singleton.mp hb]
        exact fun hab => hnew (hab ▸ ha)⟩
    · have hmode : mode i ≠ 5 := fun hfive => halive (if_pos hfive)
      change (if mode i = 5 then s.sigint else dispositionOf (mode i)) =
        ((s.handled ++ [i]).getLast?.map fun i => dispositionOf (mode i)).getD .SIG_DFL
      rw [if_neg hmode, List.getLast?_append_of_ne_nil _ (List.cons_ne_nil i [])]
      rfl
    · change (s.printed ++ [lineOf (s.request_count + 1) (mode i)]).filterMap Line.requests? =
        askedCounts mode (s.handled ++ [i])
      rw [List.filterMap_append, h.requests_eq, askedCounts_append, h.count_eq]
      congr 1
      rw [List.filterMap_cons, requests?_lineOf]
      by_cases hone : mode i = 1
      · rw [if_pos hone]
        rfl
      · rw [if_neg hone]
        rfl
    · change (s.printed ++ [lineOf (s.request_count + 1) (mode i)]).filterMap Line.number? =
        List.range' 1 (s.num - 1)
      rw [List.filterMap_append, h.numbers_eq, List.filterMap_cons, number?_lineOf]
      exact List.append_nil _
    · intro j hj
      rcases List.mem_append.mp hj with hj | hj
      · exact h.sent j hj
      · rw [List.mem_singleton.mp hj]
        exact Or.inl hwaits
    · intro j hj
      change s.confirmed j = true ∨ s.signalled j = true ∨
        (if mode i = 5 then Catcher.exited else .confirming i) = .confirming j at hj
      have hold : s.confirmed j = true ∨ s.signalled j = true →
          j ∈ s.handled ++ [i] ∧ mode j ≠ 5 := by
        intro hbefore
        have hanswered := h.answered j (hbefore.imp id Or.inl)
        exact ⟨List.mem_append_left [i] hanswered.1, hanswered.2⟩
      rcases hj with hj | hj | hj
      · exact hold (Or.inl hj)
      · exact hold (Or.inr hj)
      · split_ifs at hj with hfive
        cases hj
        exact ⟨List.mem_append_right _ (List.mem_singleton_self i), hfive⟩
    · intro j hj
      change (if mode i = 5 then Catcher.exited else .confirming i) = .exited ∨
        (if mode i = 5 then Catcher.exited else .confirming i) = .confirming j ∨ _ ∨ _
      by_cases hfive : mode i = 5
      · exact Or.inl (if_pos hfive)
      · rw [if_neg hfive]
        rcases List.mem_append.mp hj with hj | hj
        · rcases h.answers j hj with hc | hc | hrest
          · rw [hcatcher] at hc
            cases hc
          · rw [hcatcher] at hc
            cases hc
          · exact Or.inr (Or.inr hrest)
        · rw [List.mem_singleton.mp hj]
          exact Or.inr (Or.inl rfl)
    · exact absurd (h.failed j hj) hfree
  · cases hstep

theorem sound_confirm (h : Sound mode s) (hstep : step mode s .confirm = some t) :
    Sound mode t := by
  simp only [step] at hstep
  split at hstep
  · rename_i i hcatcher
    cases hstep
    have halive : s.catcher ≠ .exited := by
      rw [hcatcher]
      intro hc
      cases hc
    refine { h with sigint_eq := fun _ => h.sigint_eq halive, answered := fun j hj => ?_,
                    answers := fun j hj => ?_, failed := fun j hj => absurd (h.failed j hj) halive }
    · change s.confirmed j = true ∨ Function.update s.signalled i true j = true ∨
        Catcher.main = .confirming j at hj
      by_cases hji : j = i
      · rw [hji]
        exact h.answered i (Or.inr (Or.inr hcatcher))
      · rw [Function.update_of_ne hji] at hj
        rcases hj with hj | hj | hj
        · exact h.answered j (Or.inl hj)
        · exact h.answered j (Or.inr (Or.inl hj))
        · cases hj
    · change _ ∨ _ ∨ Function.update s.signalled i true j = true ∨ _
      by_cases hji : j = i
      · rw [hji, Function.update_self]
        exact Or.inr (Or.inr (Or.inl rfl))
      · rw [Function.update_of_ne hji]
        rcases h.answers j hj with hc | hc | hrest
        · exact absurd hc halive
        · rw [hcatcher] at hc
          cases hc
          exact absurd rfl hji
        · exact Or.inr (Or.inr hrest)
  · cases hstep

theorem sound_loop (h : Sound mode s) (hstep : step mode s .loop = some t) : Sound mode t := by
  simp only [step, Option.ite_none_left_eq_some] at hstep
  have hnext := hstep.2
  split at hnext
  · split_ifs at hnext
    all_goals
      cases hnext
      exact { h with }
  · cases hnext
    have hpos := h.num_pos
    refine { h with requests_eq := ?_, numbers_eq := ?_, num_pos := Nat.succ_pos _ }
    · change (s.printed ++ [Line.number s.num]).filterMap Line.requests? = _
      rw [List.filterMap_append, h.requests_eq]
      exact List.append_nil _
    · change (s.printed ++ [Line.number s.num]).filterMap Line.number? = List.range' 1 s.num
      have hrange : List.range' 1 s.num = List.range' 1 (s.num - 1) ++ [s.num] := by
        rcases Nat.exists_eq_succ_of_ne_zero hpos.ne' with ⟨k, hk⟩
        rw [hk, List.range'_1_concat, Nat.succ_sub_one, Nat.add_comm]
      rw [List.filterMap_append, h.numbers_eq, hrange]
      rfl
  · cases hnext
    exact { h with }
  · cases hnext

theorem sound_sigint (h : Sound mode s) (hstep : step mode s .sigint = some t) :
    Sound mode t := by
  simp only [step] at hstep
  split_ifs at hstep
  split at hstep
  · cases hstep
    refine { h with sigint_eq := fun halive => absurd rfl halive, answered := fun j hj => ?_,
                    answers := fun j _ => Or.inl rfl, failed := fun j _ => rfl }
    rcases hj with hj | hj | hj
    · exact h.answered j (Or.inl hj)
    · exact h.answered j (Or.inr (Or.inl hj))
    · cases hj
  · cases hstep
    exact h
  · cases hstep
    refine { h with requests_eq := ?_, numbers_eq := ?_ }
    · rw [List.filterMap_append, h.requests_eq]
      exact List.append_nil _
    · rw [List.filterMap_append, h.numbers_eq]
      exact List.append_nil _

/-- The handler of a sender, which may have been anywhere. -/
theorem sound_delivered (h : Sound mode s) {i : Fin n} (hsignalled : s.signalled i = true) :
    Sound mode { s with
      signalled := Function.update s.signalled i false
      confirmed := Function.update s.confirmed i true } := by
  refine { h with answered := fun j hj => ?_, answers := fun j hj => ?_, done := fun j hj => ?_ }
  · change Function.update s.confirmed i true j = true ∨
      Function.update s.signalled i false j = true ∨ s.catcher = .confirming j at hj
    by_cases hji : j = i
    · rw [hji]
      exact h.answered i (Or.inr (Or.inl hsignalled))
    · rw [Function.update_of_ne hji, Function.update_of_ne hji] at hj
      exact h.answered j hj
  · change s.catcher = .exited ∨ s.catcher = .confirming j ∨
      Function.update s.signalled i false j = true ∨ Function.update s.confirmed i true j = true
    by_cases hji : j = i
    · rw [hji, Function.update_self, Function.update_self]
      exact Or.inr (Or.inr (Or.inr rfl))
    · rw [Function.update_of_ne hji, Function.update_of_ne hji]
      exact h.answers j hj
  · change Function.update s.confirmed i true j = true
    by_cases hji : j = i
    · rw [hji, Function.update_self]
    · rw [Function.update_of_ne hji]
      exact h.done j hj

theorem sound_deliver (h : Sound mode s) {i : Fin n}
    (hstep : step mode s (.deliver i) = some t) : Sound mode t := by
  simp only [step, Option.ite_none_right_eq_some, Option.some.injEq] at hstep
  rcases hstep with ⟨⟨hsignalled, _⟩, rfl⟩
  have hdelivered := sound_delivered h hsignalled
  by_cases hsuspended : s.sender i = .suspended
  · rw [if_pos hsuspended]
    exact sound_sender hdelivered (Or.inl rfl)
  · rw [if_neg hsuspended]
    exact hdelivered

theorem sound_step (h : Sound mode s) {e : Event n} (hstep : step mode s e = some t) :
    Sound mode t := by
  cases e with
  | request i fails => exact sound_request h hstep
  | catch_signal => exact sound_catch_signal h hstep
  | confirm => exact sound_confirm h hstep
  | loop => exact sound_loop h hstep
  | sigint => exact sound_sigint h hstep
  | test i =>
      simp only [step, Option.ite_none_right_eq_some, Option.some.injEq] at hstep
      rcases hstep with ⟨_, rfl⟩
      by_cases hconfirmed : s.confirmed i = true
      · rw [if_pos hconfirmed]
        exact sound_sender h (Or.inr ⟨rfl, hconfirmed⟩)
      · rw [if_neg hconfirmed]
        exact sound_sender h (Or.inl rfl)
  | suspend i =>
      simp only [step, Option.ite_none_right_eq_some, Option.some.injEq] at hstep
      rcases hstep with ⟨_, rfl⟩
      exact sound_sender h (Or.inl rfl)
  | deliver i => exact sound_deliver h hstep

theorem sound_of_run {es : List (Event n)} (hrun : run (step mode) (start n) es = some s) :
    Sound mode s :=
  (reachable_of_run hrun).invariant sound_start fun _ _ _ hv _ hstep => sound_step hv hstep

end Invariant

section Waiting

variable {n : Nat} {mode : Fin n → Int} {s t : State n}

/-- Where the processes are when no sender will move. -/
structure Stopped (s : State n) : Prop where
  catcher : s.catcher = .exited ∨ s.catcher = .main ∧ s.pending = none
  sender : ∀ i, s.sender i = .suspended ∧ s.signalled i = false ∨ s.sender i = .done ∨
    s.sender i = .failed

/-- Where the catcher is when its handler has nothing to do. -/
theorem catcher_of_idle (hcatch : step mode s .catch_signal = none)
    (hconfirm : step mode s .confirm = none) :
    s.catcher = .exited ∨ s.catcher = .main ∧ s.pending = none := by
  cases hcatcher : s.catcher with
  | main =>
      cases hpending : s.pending with
      | none => exact Or.inr ⟨rfl, rfl⟩
      | some i => simp [step, hcatcher, hpending] at hcatch
  | confirming i => simp [step, hcatcher] at hconfirm
  | exited => exact Or.inl rfl

theorem quiet_iff : Quiet mode s ↔ Stopped s := by
  constructor
  · intro hquiet
    constructor
    · exact catcher_of_idle (hquiet .catch_signal rfl) (hquiet .confirm rfl)
    · intro i
      cases hsender : s.sender i with
      | start =>
          have hrequest := hquiet (.request i false) rfl
          by_cases hexited : s.catcher = .exited <;> simp [step, hsender, hexited] at hrequest
      | test =>
          have htest := hquiet (.test i) rfl
          simp [step, hsender] at htest
      | suspending =>
          have hsuspend := hquiet (.suspend i) rfl
          simp [step, hsender] at hsuspend
      | suspended =>
          have hdeliver := hquiet (.deliver i) rfl
          simp only [step, hsender] at hdeliver
          cases hsignalled : s.signalled i with
          | false => exact Or.inl ⟨rfl, rfl⟩
          | true => simp [hsignalled] at hdeliver
      | done => exact Or.inr (Or.inl rfl)
      | failed => exact Or.inr (Or.inr rfl)
  · rintro ⟨hcatcher, hsender⟩ e he
    cases e with
    | loop => cases he
    | sigint => cases he
    | request i fails => rcases hsender i with ⟨h, _⟩ | h | h <;> simp [step, h]
    | catch_signal => rcases hcatcher with h | ⟨h, hpending⟩ <;> simp [step, *]
    | confirm => rcases hcatcher with h | ⟨h, _⟩ <;> simp [step, h]
    | test i => rcases hsender i with ⟨h, _⟩ | h | h <;> simp [step, h]
    | suspend i => rcases hsender i with ⟨h, _⟩ | h | h <;> simp [step, h]
    | deliver i => rcases hsender i with ⟨h, hsignalled⟩ | h | h <;> simp [step, *]

/-- What the catcher does by itself, and `Ctrl+C`, does not change that. -/
theorem stopped_step (h : Stopped s) {e : Event n} (hstep : step mode s e = some t) :
    Stopped t ∧ t.sender = s.sender := by
  by_cases hforced : e.forced = true
  · rw [quiet_iff.mpr h e hforced] at hstep
    cases hstep
  cases e with
  | loop =>
      simp only [step, Option.ite_none_left_eq_some] at hstep
      have hnext := hstep.2
      split at hnext
      · split_ifs at hnext
        all_goals
          cases hnext
          exact ⟨⟨h.catcher, h.sender⟩, rfl⟩
      · cases hnext
        exact ⟨⟨h.catcher, h.sender⟩, rfl⟩
      · cases hnext
        exact ⟨⟨h.catcher, h.sender⟩, rfl⟩
      · cases hnext
  | sigint =>
      simp only [step] at hstep
      split_ifs at hstep
      split at hstep
      · cases hstep
        exact ⟨⟨Or.inl rfl, h.sender⟩, rfl⟩
      · cases hstep
        exact ⟨h, rfl⟩
      · cases hstep
        exact ⟨⟨h.catcher, h.sender⟩, rfl⟩
  | _ => exact absurd rfl hforced

/-- Nothing that happens later moves a sender. -/
theorem stopped_run (h : Stopped s) {es : List (Event n)} (hrun : run (step mode) s es = some t) :
    Stopped t ∧ t.sender = s.sender := by
  have hnext : ∀ v e w, Stopped v ∧ v.sender = s.sender → step mode v e = some w →
      Stopped w ∧ w.sender = s.sender := by
    intro v e w hv hstep
    have hsame := stopped_step hv.1 hstep
    exact ⟨hsame.1, hsame.2.trans hv.2⟩
  exact (reachable_of_run hrun).invariant ⟨h, rfl⟩ fun v e w hv _ => hnext v e w hv

/-- Who has been handled and waits nevertheless. -/
theorem stopped_handled (hsound : Sound mode s) (h : Stopped s) {i : Fin n}
    (hhandled : i ∈ s.handled) (hsignalled : s.signalled i = false) :
    s.catcher = .exited ∨ s.confirmed i = true := by
  rcases hsound.answers i hhandled with hexited | hconfirming | hsignal | hconfirmed
  · exact Or.inl hexited
  · rcases h.catcher with hexited | hmain
    · exact Or.inl hexited
    · rw [hmain.1] at hconfirming
      cases hconfirming
  · rw [hsignalled] at hsignal
    cases hsignal
  · exact Or.inr hconfirmed

end Waiting

section Timeliness

variable {n : Nat} {mode : Fin n → Int} {s t : State n}

/-- What holds as long as every step is timely. -/
structure Kept (s : State n) : Prop where
  alive : s.catcher ≠ .exited
  /-- No request has been lost. -/
  kept : ∀ i, (s.sender i).waits = true → s.pending = some i ∨ i ∈ s.handled
  /-- No confirmation has been missed. -/
  noticed : ∀ i, s.confirmed i = true → s.sender i ≠ .suspending ∧ s.sender i ≠ .suspended

theorem kept_start : Kept (start n) where
  alive h := by cases h
  kept i h := by cases h
  noticed i h := by cases h

/-- A sender goes on. -/
theorem kept_sender (h : Kept s) {i : Fin n} {place : Sender}
    (hwaits : place.waits = true → (s.sender i).waits = true)
    (hnoticed : s.confirmed i = true → place ≠ .suspending ∧ place ≠ .suspended) :
    Kept { s with sender := Function.update s.sender i place } := by
  refine ⟨h.alive, fun j hj => ?_, fun j hj => ?_⟩
  · change (Function.update s.sender i place j).waits = true at hj
    by_cases hji : j = i
    · rw [hji, Function.update_self] at hj
      rw [hji]
      exact h.kept i (hwaits hj)
    · rw [Function.update_of_ne hji] at hj
      exact h.kept j hj
  · change Function.update s.sender i place j ≠ .suspending ∧
      Function.update s.sender i place j ≠ .suspended
    by_cases hji : j = i
    · rw [hji, Function.update_self]
      exact hnoticed (hji ▸ hj)
    · rw [Function.update_of_ne hji]
      exact h.noticed j hj

theorem kept_request (h : Kept s) {i : Fin n} {fails : Bool} (htimely : Timely s (.request i fails))
    (hstep : step mode s (.request i fails) = some t) : Kept t := by
  simp only [step] at hstep
  rw [htimely.2, if_pos htimely.1] at hstep
  split_ifs at hstep with hstart
  cases hstep
  refine ⟨h.alive, fun j hj => ?_, fun j hj => ?_⟩
  · change (Function.update s.sender i .test j).waits = true at hj
    by_cases hji : j = i
    · rw [hji]
      exact Or.inl rfl
    · rw [Function.update_of_ne hji] at hj
      rcases h.kept j hj with hpending | hhandled
      · rw [htimely.2] at hpending
        cases hpending
      · exact Or.inr hhandled
  · change Function.update s.sender i .test j ≠ .suspending ∧
      Function.update s.sender i .test j ≠ .suspended
    by_cases hji : j = i
    · rw [hji, Function.update_self]
      exact ⟨Sender.noConfusion, Sender.noConfusion⟩
    · rw [Function.update_of_ne hji]
      exact h.noticed j hj

theorem kept_catch_signal (h : Kept s) (hmode : ∀ i, mode i ≠ 5)
    (hstep : step mode s .catch_signal = some t) : Kept t := by
  simp only [step] at hstep
  split at hstep
  · rename_i i hcatcher hpending
    cases hstep
    rcases handle_sigusr1_eq mode { s with pending := none } i h.alive with ⟨c, heq⟩
    rw [heq]
    refine ⟨fun halive => ?_, fun j hj => ?_, h.noticed⟩
    · change (if mode i = 5 then Catcher.exited else .confirming i) = .exited at halive
      rw [if_neg (hmode i)] at halive
      cases halive
    · refine Or.inr (List.mem_append.mpr ?_)
      rcases h.kept j hj with hp | hhandled
      · rw [hpending] at hp
        cases hp
        exact Or.inr (List.mem_singleton_self i)
      · exact Or.inl hhandled
  · cases hstep

/-- A confirmation that comes while the sender sleeps wakes it, and one that comes
    before it has looked is seen when it does. -/
theorem kept_deliver (h : Kept s) {i : Fin n} (htimely : s.sender i ≠ .suspending) :
    Kept { s with
      signalled := Function.update s.signalled i false
      confirmed := Function.update s.confirmed i true
      sender := if s.sender i = .suspended then Function.update s.sender i .test
        else s.sender } := by
  by_cases hsuspended : s.sender i = .suspended
  · rw [if_pos hsuspended]
    have hwoken : Kept { s with sender := Function.update s.sender i .test } :=
      kept_sender h (fun _ => by rw [hsuspended]; rfl) fun _ =>
        ⟨Sender.noConfusion, Sender.noConfusion⟩
    refine ⟨h.alive, hwoken.kept, fun j hj => ?_⟩
    change Function.update s.confirmed i true j = true at hj
    by_cases hji : j = i
    · change Function.update s.sender i .test j ≠ .suspending ∧
        Function.update s.sender i .test j ≠ .suspended
      rw [hji, Function.update_self]
      exact ⟨Sender.noConfusion, Sender.noConfusion⟩
    · rw [Function.update_of_ne hji] at hj
      exact hwoken.noticed j hj
  · rw [if_neg hsuspended]
    refine ⟨h.alive, h.kept, fun j hj => ?_⟩
    change Function.update s.confirmed i true j = true at hj
    by_cases hji : j = i
    · rw [hji]
      exact ⟨htimely, hsuspended⟩
    · rw [Function.update_of_ne hji] at hj
      exact h.noticed j hj

theorem kept_step (h : Kept s) (hmode : ∀ i, mode i ≠ 5) {e : Event n} (htimely : Timely s e)
    (hstep : step mode s e = some t) : Kept t := by
  cases e with
  | request i fails => exact kept_request h htimely hstep
  | catch_signal => exact kept_catch_signal h hmode hstep
  | confirm =>
      simp only [step] at hstep
      split at hstep
      · cases hstep
        exact ⟨fun hc => (by cases hc), h.kept, h.noticed⟩
      · cases hstep
  | loop =>
      simp only [step, Option.ite_none_left_eq_some] at hstep
      have hnext := hstep.2
      split at hnext
      · split_ifs at hnext
        all_goals
          cases hnext
          exact { h with }
      all_goals
        cases hnext
      · exact { h with }
      · exact { h with }
  | sigint =>
      simp only [step] at hstep
      split_ifs at hstep
      split at hstep
      · rename_i hdfl
        exact absurd hdfl htimely
      all_goals
        cases hstep
        exact { h with }
  | test i =>
      simp only [step, Option.ite_none_right_eq_some, Option.some.injEq] at hstep
      rcases hstep with ⟨htest, rfl⟩
      refine kept_sender h (fun _ => by rw [htest]; rfl) fun hconfirmed => ?_
      rw [if_pos hconfirmed]
      exact ⟨Sender.noConfusion, Sender.noConfusion⟩
  | suspend i =>
      simp only [step, Option.ite_none_right_eq_some, Option.some.injEq] at hstep
      rcases hstep with ⟨hsuspending, rfl⟩
      refine kept_sender h (fun _ => by rw [hsuspending]; rfl) fun hconfirmed => ?_
      exact absurd hsuspending (h.noticed i hconfirmed).1
  | deliver i =>
      simp only [step, Option.ite_none_right_eq_some, Option.some.injEq] at hstep
      rcases hstep with ⟨_, rfl⟩
      exact kept_deliver h htimely

theorem left_start : left (start n) = 8 * n := by
  have hsignalled : countOf id (start n).signalled = 0 := countOf_eq_zero_iff.mpr fun _ => rfl
  have hsender : sumOf (fun _ => Sender.left) (start n).sender = n * 8 := by
    unfold sumOf
    change ∑ _i : Fin n, 8 = n * 8
    rw [Finset.sum_const, Finset.card_univ, Fintype.card_fin, Nat.nsmul_eq_mul]
  unfold left
  rw [hsignalled, hsender]
  change n * 8 + 3 * 0 + 0 + 0 = 8 * n
  omega

/-- A forced step leaves fewer of them, and no step more. -/
theorem left_step {e : Event n} (hstep : step mode s e = some t) :
    left t + e.forced.toNat ≤ left s := by
  have hsender : ∀ i place, sumOf (fun _ => Sender.left) (Function.update s.sender i place) +
      (s.sender i).left = sumOf (fun _ => Sender.left) s.sender + place.left :=
    fun _ _ => sumOf_update
  have hsignalled : ∀ i b, countOf id (Function.update s.signalled i b) + (s.signalled i).toNat =
      countOf id s.signalled + b.toNat := fun _ _ => countOf_update
  cases e with
  | request i fails =>
      simp only [step] at hstep
      split_ifs at hstep with hstart hcatcher hfails
      all_goals
        cases hstep
        have hstart := not_not.mp hstart
        simp only [left, Event.forced, Bool.toNat_true]
      · have hnew := hsender i .test
        rw [hstart] at hnew
        change _ + 8 = _ + 2 at hnew
        have hpending : pendingLeft (some (s.pending.getD i)) ≤ pendingLeft s.pending + 5 :=
          Nat.le_add_left 5 _
        omega
      · have hnew := hsender i .failed
        rw [hstart] at hnew
        change _ + 8 = _ + 0 at hnew
        omega
      · have hnew := hsender i .test
        rw [hstart] at hnew
        change _ + 8 = _ + 2 at hnew
        omega
  | catch_signal =>
      simp only [step] at hstep
      split at hstep
      · rename_i i hcatcher hpending
        cases hstep
        rcases handle_sigusr1_eq mode { s with pending := none } i
          (by simp [hcatcher]) with ⟨c, heq⟩
        rw [heq]
        simp only [left, Event.forced, Bool.toNat_true, hcatcher, hpending, pendingLeft]
        have hless : (if mode i = 5 then Catcher.exited else .confirming i).left ≤ 4 := by
          split_ifs
          · exact Nat.zero_le 4
          · exact Nat.le_refl 4
        omega
      · cases hstep
  | confirm =>
      simp only [step] at hstep
      split at hstep
      · rename_i i hcatcher
        cases hstep
        have hnew := hsignalled i true
        simp only [left, Event.forced, Bool.toNat_true, hcatcher, Catcher.left] at hnew ⊢
        omega
      · cases hstep
  | loop =>
      simp only [step, Option.ite_none_left_eq_some] at hstep
      have hnext := hstep.2
      split at hnext
      · split_ifs at hnext
        all_goals
          cases hnext
          exact Nat.le_refl _
      all_goals
        cases hnext
      · exact Nat.le_refl _
      · exact Nat.le_refl _
  | sigint =>
      simp only [step] at hstep
      split_ifs at hstep
      split at hstep
      all_goals
        cases hstep
      · exact Nat.add_le_add_left (Nat.zero_le _) _
      · exact Nat.le_refl _
      · exact Nat.le_refl _
  | test i =>
      simp only [step, Option.ite_none_right_eq_some, Option.some.injEq] at hstep
      rcases hstep with ⟨htest, rfl⟩
      have hnew := hsender i (if s.confirmed i = true then .done else .suspending)
      have hless : (if s.confirmed i = true then Sender.done else .suspending).left ≤ 1 := by
        split_ifs
        · exact Nat.zero_le 1
        · exact Nat.le_refl 1
      rw [htest] at hnew
      change _ + 2 = _ at hnew
      simp only [left, Event.forced, Bool.toNat_true]
      omega
  | suspend i =>
      simp only [step, Option.ite_none_right_eq_some, Option.some.injEq] at hstep
      rcases hstep with ⟨hsuspending, rfl⟩
      have hnew := hsender i .suspended
      rw [hsuspending] at hnew
      simp only [left, Event.forced, Bool.toNat_true, Sender.left] at hnew ⊢
      omega
  | deliver i =>
      simp only [step, Option.ite_none_right_eq_some, Option.some.injEq] at hstep
      rcases hstep with ⟨⟨hsignal, _⟩, rfl⟩
      have hnew := hsignalled i false
      have hwoken : sumOf (fun _ => Sender.left) (if s.sender i = .suspended then
          Function.update s.sender i .test else s.sender) ≤
          sumOf (fun _ => Sender.left) s.sender + 2 := by
        by_cases hsuspended : s.sender i = .suspended
        · have hsum := hsender i .test
          rw [if_pos hsuspended]
          exact (Nat.le_add_right _ _).trans hsum.le
        · rw [if_neg hsuspended]
          exact Nat.le_add_right _ 2
      rw [hsignal] at hnew
      simp only [left, Event.forced, Bool.toNat_true, Bool.toNat_false] at hnew ⊢
      omega

theorem left_run {es : List (Event n)} (hrun : run (step mode) (start n) es = some s) :
    es.countP Event.forced ≤ 8 * n := by
  have hcount := run_countP_le Event.forced left
    (fun _ _ _ hv _ hstep => ⟨sound_step hv hstep, left_step hstep⟩) sound_start hrun
    (meets_of_run hrun)
  rw [left_start] at hcount
  omega

theorem kept_of_run (hmode : ∀ i, mode i ≠ 5) {es : List (Event n)}
    (hrun : run (step mode) (start n) es = some s)
    (htimely : Meets (step mode) Timely (start n) es) : Kept s :=
  (reaches_of_run hrun htimely).invariant kept_start fun _ _ _ hv hok hstep =>
    kept_step hv hmode hok hstep

/-- Where only untimely steps are left, there are none. -/
theorem quiet_of_timely (h : Kept s)
    (hquiet : ∀ e : Event n, e.forced = true → Timely s e → step mode s e = none) :
    Quiet mode s := by
  have hcatcher : s.catcher = .main ∧ s.pending = none :=
    (catcher_of_idle (hquiet .catch_signal rfl trivial) (hquiet .confirm rfl trivial)).resolve_left
      h.alive
  intro e he
  cases e with
  | request i fails => exact hquiet _ he ⟨h.alive, hcatcher.2⟩
  | deliver i =>
      by_cases hsuspending : s.sender i = .suspending
      · -- The confirmation has to wait, but the sender does not.
        have hsuspend := hquiet (.suspend i) rfl trivial
        simp [step, hsuspending] at hsuspend
      · exact hquiet _ he hsuspending
  | loop => cases he
  | sigint => cases he
  | _ => exact hquiet _ he trivial

/-- Whoever ends has been handled once. The numbers the catcher prints, of requests
    and in its loop, are right, and `Ctrl+C` does what the last request says. -/
theorem handled_once {es : List (Event n)} (hrun : run (step mode) (start n) es = some s) :
    s.handled.Nodup ∧ s.request_count = s.handled.length ∧
      (∀ i, s.sender i = .done → i ∈ s.handled ∧ mode i ≠ 5) ∧
      (s.catcher ≠ .exited → s.sigint =
        (s.handled.getLast?.map fun i => dispositionOf (mode i)).getD .SIG_DFL) ∧
      s.printed.filterMap Line.requests? = askedCounts mode s.handled ∧
      s.printed.filterMap Line.number? = List.range' 1 (s.num - 1) := by
  have hsound := sound_of_run hrun
  exact ⟨hsound.nodup, hsound.count_eq, fun i hi => hsound.answered i (Or.inl (hsound.done i hi)),
    hsound.sigint_eq, hsound.requests_eq, hsound.numbers_eq⟩

/-- The second request is handled while the numbers are printed. -/
theorem handled_once_two :
    ∃ s, run (step fun i => 2 - (i.val : Int)) (start 2) [.request 0 false, .catch_signal, .confirm,
        .loop, .loop, .request 1 false, .loop, .catch_signal, .confirm, .loop, .deliver 1,
        .test 1] = some s ∧
      1 ∈ s.handled ∧ s.printed = [.numbers, .number 1, .requests 2, .number 2] := by
  have hrun : ∃ s, run (step fun i => 2 - (i.val : Int)) (start 2) [.request 0 false,
      .catch_signal, .confirm, .loop, .loop, .request 1 false, .loop, .catch_signal, .confirm,
      .loop, .deliver 1, .test 1] = some s ∧ s.sender 1 = .done ∧
      s.printed = [.numbers, .number 1, .requests 2, .number 2] := ⟨_, rfl, rfl, rfl⟩
  rcases hrun with ⟨s, hrun, hdone, hprinted⟩
  exact ⟨s, hrun, ((handled_once hrun).2.2.1 1 hdone).1, hprinted⟩

/-- There are only so many forced steps. After them, whoever has not ended waits
    for a catcher that has exited, or its request has been lost, or its
    confirmation has come before it slept, and it waits for ever. -/
theorem who_waits {es : List (Event n)} (hrun : run (step mode) (start n) es = some s) :
    es.countP Event.forced ≤ 8 * n ∧
      (Quiet mode s →
        (∀ i, s.sender i = .done ∨ s.sender i = .failed ∧ s.catcher = .exited ∨
          s.sender i = .suspended ∧
            (s.catcher = .exited ∨ i ∉ s.handled ∨ s.confirmed i = true)) ∧
        ∀ es' t, run (step mode) s es' = some t → t.sender = s.sender) := by
  refine ⟨left_run hrun, fun hquiet => ?_⟩
  have hsound := sound_of_run hrun
  have hstopped := quiet_iff.mp hquiet
  refine ⟨fun i => ?_, fun es' t hlater => (stopped_run hstopped hlater).2⟩
  rcases hstopped.sender i with ⟨hsuspended, hsignalled⟩ | hdone | hfailed
  · refine Or.inr (Or.inr ⟨hsuspended, ?_⟩)
    by_cases hhandled : i ∈ s.handled
    · rcases stopped_handled hsound hstopped hhandled hsignalled with hexited | hconfirmed
      · exact Or.inl hexited
      · exact Or.inr (Or.inr hconfirmed)
    · exact Or.inr (Or.inl hhandled)
  · exact Or.inl hdone
  · exact Or.inr (Or.inl ⟨hfailed, hsound.failed i hfailed⟩)

/-- The second signal is sent while the first one is pending. -/
theorem who_waits_two :
    ∃ s, run (step fun _ => 1) (start 2) [.request 0 false, .request 1 false, .catch_signal,
        .confirm, .deliver 0, .test 0, .test 1, .suspend 1] = some s ∧
      s.handled = [0] ∧ s.sender 1 = .suspended ∧
      ∀ es t, run (step fun _ => 1) s es = some t → t.sender = s.sender := by
  have hrun : ∃ s, run (step fun _ => 1) (start 2) [.request 0 false, .request 1 false,
      .catch_signal, .confirm, .deliver 0, .test 0, .test 1, .suspend 1] = some s ∧
      s.handled = [0] ∧ s.sender 1 = .suspended ∧ Stopped s := by
    refine ⟨_, rfl, rfl, rfl, Or.inr ⟨rfl, rfl⟩, fun i => ?_⟩
    by_cases hi : i = 0
    · rw [hi]
      exact Or.inr (Or.inl rfl)
    · have hone : i = 1 := by omega
      rw [hone]
      exact Or.inl ⟨rfl, rfl⟩
  rcases hrun with ⟨s, hrun, hhandled, hsuspended, hstopped⟩
  exact ⟨s, hrun, hhandled, hsuspended, ((who_waits hrun).2 (quiet_iff.mpr hstopped)).2⟩

/-- When nobody sends while a signal is pending, no confirmation comes between the
    condition and `sigsuspend`, and nothing ends the catcher, all senders end. -/
theorem all_confirmed (hmode : ∀ i, mode i ≠ 5) {es : List (Event n)}
    (hrun : run (step mode) (start n) es = some s)
    (htimely : Meets (step mode) Timely (start n) es)
    (hquiet : ∀ e : Event n, e.forced = true → Timely s e → step mode s e = none) :
    ∀ i, s.sender i = .done := by
  have hsound := sound_of_run hrun
  have hkept := kept_of_run hmode hrun htimely
  have hstopped := quiet_iff.mp (quiet_of_timely hkept hquiet)
  intro i
  rcases hstopped.sender i with ⟨hsuspended, hsignalled⟩ | hdone | hfailed
  · have hhandled : i ∈ s.handled := by
      rcases hkept.kept i (by rw [hsuspended]; rfl) with hpending | hhandled
      · rw [(hstopped.catcher.resolve_left hkept.alive).2] at hpending
        cases hpending
      · exact hhandled
    rcases stopped_handled hsound hstopped hhandled hsignalled with hexited | hconfirmed
    · exact absurd hexited hkept.alive
    · exact absurd hsuspended (hkept.noticed i hconfirmed).2
  · exact hdone
  · exact absurd (hsound.failed i hfailed) hkept.alive

/-- The second sender sends after the first one has been confirmed. -/
theorem all_confirmed_two :
    ∃ s, run (step fun _ => 3) (start 2) [.request 0 false, .catch_signal, .confirm, .sigint,
        .deliver 0, .test 0, .request 1 false, .test 1, .suspend 1, .catch_signal, .confirm,
        .deliver 1, .test 1] = some s ∧
      ∀ i, s.sender i = .done := by
  have hrun : ∃ s, run (step fun _ => 3) (start 2) [.request 0 false, .catch_signal, .confirm,
      .sigint, .deliver 0, .test 0, .request 1 false, .test 1, .suspend 1, .catch_signal,
      .confirm, .deliver 1, .test 1] = some s ∧ Stopped s := by
    refine ⟨_, rfl, Or.inr ⟨rfl, rfl⟩, fun i => ?_⟩
    by_cases hi : i = 0
    · rw [hi]
      exact Or.inr (Or.inl rfl)
    · have hone : i = 1 := by omega
      rw [hone]
      exact Or.inr (Or.inl rfl)
  rcases hrun with ⟨s, hrun, hstopped⟩
  exact ⟨s, hrun, all_confirmed (fun _ => by decide) hrun (by decide) fun e he _ =>
    quiet_iff.mpr hstopped e he⟩

end Timeliness

end Lab4

end OsLabs
