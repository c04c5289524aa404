import OsLabs.Lab5.Fifo

/-!
# One Customer at a Time

Requests and answers go through one FIFO without a name on them, so an answer
finds its sender only while no other sender is about. `Alone` says that of the
calls of `open` for writing, and it is enough: as long as it holds, the service
to any number of senders is the service to a single one, whose rounds are theirs
one after the other. `serves_one` is that simulation, and the rest is about a
single sender.

There the FIFO holds what the sender has written and the calculator has not
read, or the answer. It is empty when the sender opens it for writing, which is
where a sender that has failed to open it for reading would leave something
behind for the next.

## Main definitions

* `Fresh`: The last integral computed, not reported yet.
* `Holds`: The calculator is at work on an interval.
* `Dropped`: The calculator has nothing and the FIFO is empty.
* `Fits`: The invariant of the service to one sender.
* `Sees`: The service to many senders looks like the service to one.

## Theorems

* `sound_sender`, `sound_calculator`: A step keeps the invariant.
* `serves_one`: The simulation.
* `answered_while_alone`: Every result is the sender's own.
* `answered_while_alone_run`: Two senders, one after the other.
* `bound_taken_for_result`: A sender that waits for its result reads the bound
  another one has written.
-/

namespace OsLabs

namespace Lab5

variable {n : Nat} {Double : Type}

/-- The integral is the last one computed, and none of those reported. -/
def Fresh (computed reported : List (Integral Double)) (r : Integral Double) : Prop :=
  ∃ before, computed = before ++ [r] ∧ reported.Sublist before

/-- The calculator is at work on this interval: what it has read and what stands
    in the FIFO. -/
inductive Holds (computed reported : List (Integral Double)) (a b : Double) :
    Calculator Double → List Double → Prop
  | reading_a : Holds computed reported a b .reading_a [a, b]
  | reading_b : Holds computed reported a b (.reading_b a) [b]
  | closing_read : Holds computed reported a b (.closing_read (some (a, b))) []
  | integrating : Holds computed reported a b (.integrating a b) []
  | answering (integralResult : Double) (hfresh : Fresh computed reported ⟨a, b, integralResult⟩) :
      Holds computed reported a b (.answering integralResult) []
  | opening_write (integralResult : Double)
      (hfresh : Fresh computed reported ⟨a, b, integralResult⟩) :
      Holds computed reported a b (.opening_write integralResult) []

/-- The calculator has nothing, and does not have the FIFO open for writing. -/
inductive Dropped : Calculator Double → Prop
  | listening : Dropped .listening
  | opening_read : Dropped .opening_read
  | reading_a : Dropped .reading_a
  | closing_read : Dropped (.closing_read none)
  | gone : Dropped .gone

/-- The calculator has an answer nobody waits for, or nothing, and does not wait
    to read. -/
inductive Apart : Calculator Double → Prop
  | listening : Apart .listening
  | closing_write : Apart .closing_write
  | integrating (a b : Double) : Apart (.integrating a b)
  | answering (integralResult : Double) : Apart (.answering integralResult)
  | opening_write (integralResult : Double) : Apart (.opening_write integralResult)
  | gone : Apart .gone

/-- The calculator has written its answer. -/
inductive Written : Calculator Double → Prop
  | closing_write : Written .closing_write
  | listening : Written .listening
  | opening_read : Written .opening_read

/-- The sender has written its interval and not begun to read. -/
inductive Requested (a b : Double) : Sender Double → Prop
  | closing_write : Requested a b (.closing_write a b)
  | fetching : Requested a b (.fetching a b)
  | opening_read : Requested a b (.opening_read a b)

/-- How the sender, the calculator and the FIFO fit together. -/
inductive Fits (computed reported : List (Integral Double)) :
    Sender Double → Calculator Double → List Double → Prop
  | idle (place : Sender Double) (hidle : place.busy = false) (c : Calculator Double)
      (hc : c = .closing_write ∨ Dropped c) : Fits computed reported place c []
  /-- The sender has failed to open the FIFO for reading. -/
  | given_up (place : Sender Double) (hidle : place.busy = false) (a b : Double)
      (c : Calculator Double) (pipe : List Double) (hc : Holds computed reported a b c pipe) :
      Fits computed reported place c pipe
  | opening_write (a b : Double) (c : Calculator Double) (hc : Apart c) :
      Fits computed reported (.opening_write a b) c []
  | writing_a (a b : Double) : Fits computed reported (.writing_a a b) .reading_a []
  | writing_b (a b : Double) : Fits computed reported (.writing_b a b) .reading_a [a]
  | writing_b_read (a b : Double) : Fits computed reported (.writing_b a b) (.reading_b a) []
  | requested (a b : Double) (place : Sender Double) (hplace : Requested a b place)
      (c : Calculator Double) (pipe : List Double) (hc : Holds computed reported a b c pipe) :
      Fits computed reported place c pipe
  /-- The calculator has failed to open the FIFO for writing. -/
  | dropped (a b : Double) (place : Sender Double) (hplace : Requested a b place)
      (c : Calculator Double) (hc : Dropped c) : Fits computed reported place c []
  | answered (a b integralResult : Double)
      (hfresh : Fresh computed reported ⟨a, b, integralResult⟩) :
      Fits computed reported (.reading a b) (.writing integralResult) []
  | written (a b integralResult : Double)
      (hfresh : Fresh computed reported ⟨a, b, integralResult⟩) (c : Calculator Double)
      (hc : Written c) : Fits computed reported (.reading a b) c [integralResult]
  | closing_read (c : Calculator Double) (hc : Written c) :
      Fits computed reported .closing_read c []

/-- The invariant of the service to one sender. -/
structure Sound (s : State 1 Double) : Prop where
  fits : Fits s.computed s.reported (s.sender 0) s.calculator s.pipe
  sublist : s.reported.Sublist s.computed

section One

variable {s s' : State 1 Double}

theorem hasEnd_one (s : State 1 Double) (e : End) :
    s.hasEnd e ↔ s.calculator.has = some e ∨ (s.sender 0).has = some e := by
  rw [State.hasEnd, Fin.exists_fin_one]

theorem present_one (s : State 1 Double) (e : End) :
    s.present e ↔ (s.calculator.has = some e ∨ (s.sender 0).has = some e) ∨
      s.calculator.wants = some e ∨ (s.sender 0).wants = some e := by
  rw [State.present, hasEnd_one, Fin.exists_fin_one]

/-- Whether both ends are there, by the places of the sender and the calculator. -/
def meet (place : Sender Double) (c : Calculator Double) : Bool :=
  [End.read, End.write].all fun e =>
    c.has = some e || place.has = some e || c.wants = some e || place.wants = some e

theorem rendezvous_one (s : State 1 Double) :
    s.rendezvous = if meet (s.sender 0) s.calculator then
      { s with sender := fun i => (s.sender i).admitted, calculator := s.calculator.admitted }
    else s := by
  have hiff : (s.present .read ∧ s.present .write) ↔ meet (s.sender 0) s.calculator = true := by
    simp only [present_one, meet, List.all_cons, List.all_nil, Bool.and_true, Bool.and_eq_true,
      Bool.or_eq_true, decide_eq_true_eq, or_assoc]
  unfold State.rendezvous
  by_cases hmeet : meet (s.sender 0) s.calculator = true
  · rw [if_pos (hiff.mpr hmeet), if_pos hmeet]
  · rw [if_neg (fun h => hmeet (hiff.mp h)), if_neg hmeet]

/-- Where the calculator and the sender are after one of them has begun to wait. -/
theorem sound_rendezvous (hfits : Fits s.computed s.reported
      (if meet (s.sender 0) s.calculator then (s.sender 0).admitted else s.sender 0)
      (if meet (s.sender 0) s.calculator then s.calculator.admitted else s.calculator) s.pipe)
    (hsublist : s.reported.Sublist s.computed) : Sound s.rendezvous := by
  rw [rendezvous_one]
  by_cases hmeet : meet (s.sender 0) s.calculator = true
  · rw [if_pos hmeet] at hfits ⊢
    rw [if_pos hmeet] at hfits
    exact ⟨hfits, hsublist⟩
  · rw [if_neg hmeet] at hfits ⊢
    rw [if_neg hmeet] at hfits
    exact ⟨hfits, hsublist⟩

/-- An end has been given up; nothing is lost where the FIFO is empty. -/
theorem sound_release (h : Sound s) (hkept : s.pipe = [] ∨ s.hasEnd .read) : Sound s.release := by
  unfold State.release
  by_cases hopen : s.hasEnd .read ∨ s.hasEnd .write
  · rw [if_pos hopen]
    exact h
  · rw [if_neg hopen]
    rcases hkept with hempty | hread
    · have hfits := h.fits
      rw [hempty] at hfits
      exact ⟨hfits, h.sublist⟩
    · exact absurd (Or.inl hread) hopen

/-- The sender opens the FIFO for writing. -/
theorem fits_request {computed reported : List (Integral Double)} {place : Sender Double}
    {c : Calculator Double} {pipe : List Double} (h : Fits computed reported place c pipe)
    (hidle : place.busy = false) (hread : c.has ≠ some .read) (a b : Double) :
    Fits computed reported
      (if meet (.opening_write a b) c then .writing_a a b else .opening_write a b)
      (if meet (.opening_write a b) c then c.admitted else c) pipe := by
  cases h with
  | idle _ _ _ hc =>
      -- Only a calculator that waits for a writer lets the sender in.
      rcases hc with rfl | hc
      · exact Fits.opening_write a b _ Apart.closing_write
      · cases hc with
        | listening => exact Fits.opening_write a b _ Apart.listening
        | opening_read => exact Fits.writing_a a b
        | reading_a => exact absurd rfl hread
        | closing_read => exact absurd rfl hread
        | gone => exact Fits.opening_write a b _ Apart.gone
  | given_up _ _ a' b' _ _ hc =>
      -- The calculator is still busy with the interval that was given up.
      cases hc with
      | reading_a => exact absurd rfl hread
      | reading_b => exact absurd rfl hread
      | closing_read => exact absurd rfl hread
      | integrating => exact Fits.opening_write a b _ (Apart.integrating a' b')
      | answering v hfresh => exact Fits.opening_write a b _ (Apart.answering v)
      | opening_write v hfresh => exact Fits.opening_write a b _ (Apart.opening_write v)
  | requested _ _ _ hplace => cases hplace <;> cases hidle
  | dropped _ _ _ hplace => cases hplace <;> cases hidle
  | _ => cases hidle

/-- The sender opens the FIFO for reading. -/
theorem fits_fetch {computed reported : List (Integral Double)} {a b : Double}
    {c : Calculator Double} {pipe : List Double}
    (h : Fits computed reported (.fetching a b) c pipe) :
    Fits computed reported
      (if meet (.opening_read a b) c then .reading a b else .opening_read a b)
      (if meet (.opening_read a b) c then c.admitted else c) pipe := by
  have hwaits : ∀ c pipe, Holds computed reported a b c pipe →
      Fits computed reported (.opening_read a b) c pipe :=
    fun c pipe hc => Fits.requested a b _ Requested.opening_read c pipe hc
  have hdropped : ∀ c, Dropped c → Fits computed reported (.opening_read a b) c [] :=
    fun c hc => Fits.dropped a b _ Requested.opening_read c hc
  cases h with
  | requested _ _ _ hplace _ _ hc =>
      -- The sender waits until the calculator opens the FIFO to answer.
      cases hplace
      cases hc with
      | reading_a => exact hwaits _ _ Holds.reading_a
      | reading_b => exact hwaits _ _ Holds.reading_b
      | closing_read => exact hwaits _ _ Holds.closing_read
      | integrating => exact hwaits _ _ Holds.integrating
      | answering v hfresh => exact hwaits _ _ (Holds.answering v hfresh)
      | opening_write v hfresh => exact Fits.answered a b v hfresh
  | dropped _ _ _ hplace _ hc =>
      -- There is no answer to come, and nobody to let the sender in.
      cases hplace
      cases hc with
      | listening => exact hdropped _ Dropped.listening
      | opening_read => exact hdropped _ Dropped.opening_read
      | reading_a => exact hdropped _ Dropped.reading_a
      | closing_read => exact hdropped _ Dropped.closing_read
      | gone => exact hdropped _ Dropped.gone
  | idle _ hidle => cases hidle
  | given_up _ hidle => cases hidle

/-- The sender gives up where it would open the FIFO for reading. -/
theorem fits_give_up {computed reported : List (Integral Double)} {a b : Double}
    {c : Calculator Double} {pipe : List Double}
    (h : Fits computed reported (.fetching a b) c pipe) :
    Fits computed reported .entering c pipe := by
  cases h with
  | requested _ _ _ hplace _ _ hc =>
      cases hplace
      exact Fits.given_up _ rfl a b c pipe hc
  | dropped _ _ _ _ _ hc => exact Fits.idle _ rfl c (Or.inr hc)
  | idle _ hidle => cases hidle
  | given_up _ hidle => cases hidle

/-- The sender closes the FIFO after writing. What has not been read is read by
    the calculator. -/
theorem fits_requested {computed reported : List (Integral Double)} {a b : Double}
    {c : Calculator Double} {pipe : List Double}
    (h : Fits computed reported (.closing_write a b) c pipe) :
    Fits computed reported (.fetching a b) c pipe ∧ (pipe = [] ∨ c.has = some .read) := by
  cases h with
  | requested _ _ _ hplace _ _ hc =>
      cases hplace
      refine ⟨Fits.requested a b _ Requested.fetching c pipe hc, ?_⟩
      cases hc with
      | reading_a => exact Or.inr rfl
      | reading_b => exact Or.inr rfl
      | _ => exact Or.inl rfl
  | dropped _ _ _ _ _ hc => exact ⟨Fits.dropped a b _ Requested.fetching c hc, Or.inl rfl⟩
  | idle _ hidle => cases hidle
  | given_up _ hidle => cases hidle

theorem fits_idle {computed reported : List (Integral Double)} {place place' : Sender Double}
    {c : Calculator Double} {pipe : List Double} (h : Fits computed reported place c pipe)
    (hidle : place.busy = false) (hidle' : place'.busy = false) :
    Fits computed reported place' c pipe := by
  cases h with
  | idle _ _ _ hc => exact Fits.idle place' hidle' c hc
  | given_up _ _ a b _ _ hc => exact Fits.given_up place' hidle' a b c pipe hc
  | requested _ _ _ hplace => cases hplace <;> cases hidle
  | dropped _ _ _ hplace => cases hplace <;> cases hidle
  | _ => cases hidle

theorem fits_writing_a {computed reported : List (Integral Double)} {a b : Double}
    {c : Calculator Double} {pipe : List Double}
    (h : Fits computed reported (.writing_a a b) c pipe) : c = .reading_a ∧ pipe = [] := by
  cases h with
  | writing_a => exact ⟨rfl, rfl⟩
  | requested _ _ _ hplace => cases hplace
  | dropped _ _ _ hplace => cases hplace
  | idle _ hidle => cases hidle
  | given_up _ hidle => cases hidle

theorem fits_writing_b {computed reported : List (Integral Double)} {a b : Double}
    {c : Calculator Double} {pipe : List Double}
    (h : Fits computed reported (.writing_b a b) c pipe) :
    c.has = some .read ∧ Holds computed reported a b c (pipe ++ [b]) := by
  cases h with
  | writing_b => exact ⟨rfl, Holds.reading_a⟩
  | writing_b_read => exact ⟨rfl, Holds.reading_b⟩
  | requested _ _ _ hplace => cases hplace
  | dropped _ _ _ hplace => cases hplace
  | idle _ hidle => cases hidle
  | given_up _ hidle => cases hidle

/-- While the sender reads, the FIFO holds its answer, or the calculator is about
    to write it. -/
theorem fits_reading {computed reported : List (Integral Double)} {a b : Double}
    {c : Calculator Double} {pipe : List Double}
    (h : Fits computed reported (.reading a b) c pipe) :
    ∃ integralResult, Fresh computed reported ⟨a, b, integralResult⟩ ∧
      (c = .writing integralResult ∧ pipe = [] ∨ Written c ∧ pipe = [integralResult]) := by
  cases h with
  | answered _ _ v hfresh => exact ⟨v, hfresh, Or.inl ⟨rfl, rfl⟩⟩
  | written _ _ v hfresh _ hc => exact ⟨v, hfresh, Or.inr ⟨hc, rfl⟩⟩
  | requested _ _ _ hplace => cases hplace
  | dropped _ _ _ hplace => cases hplace
  | idle _ hidle => cases hidle
  | given_up _ hidle => cases hidle

theorem fits_closing_read {computed reported : List (Integral Double)}
    {c : Calculator Double} {pipe : List Double}
    (h : Fits computed reported .closing_read c pipe) : Written c ∧ pipe = [] := by
  cases h with
  | closing_read _ hc => exact ⟨hc, rfl⟩
  | requested _ _ _ hplace => cases hplace
  | dropped _ _ _ hplace => cases hplace
  | idle _ hidle => cases hidle
  | given_up _ hidle => cases hidle

theorem written_idle {c : Calculator Double} (h : Written c) : c = .closing_write ∨ Dropped c := by
  cases h with
  | closing_write => exact Or.inl rfl
  | listening => exact Or.inr Dropped.listening
  | opening_read => exact Or.inr Dropped.opening_read

/-- A step of the sender keeps the invariant, and nobody is killed. -/
theorem sound_sender (h : Sound s) {fails : Bool} (halone : Alone s (.sender 0 fails))
    (hstep : sender s 0 fails = some s') :
    Sound s' ∧ ((s.sender 0).busy = true → s'.sender 0 ≠ .gone) := by
  have hfits := h.fits
  unfold sender at hstep
  cases hplace : s.sender 0 <;> simp only [hplace] at hstep hfits
  case entering => cases hstep
  case requesting a b =>
    refine ⟨?_, fun hbusy => by cases hbusy⟩
    rw [← Option.some.inj hstep]
    cases fails with
    | true =>
        refine ⟨?_, h.sublist⟩
        rw [if_pos rfl, move_self]
        exact fits_idle hfits rfl rfl
    | false =>
        have hread := (halone rfl (by rw [hplace]; rfl)).2
        refine sound_rendezvous ?_ h.sublist
        rw [move_self]
        exact fits_request hfits rfl hread a b
  case opening_write => cases hstep
  case opening_read => cases hstep
  case gone => cases hstep
  case writing_a a b =>
    -- The calculator reads, so the sender is not killed for writing.
    rcases fits_writing_a hfits with ⟨hc, hpipe⟩
    have hread : s.hasEnd .read := Or.inl (by rw [hc]; rfl)
    rw [if_pos hread] at hstep
    rw [← Option.some.inj hstep]
    refine ⟨⟨?_, h.sublist⟩, fun _ => ?_⟩
    · simp only [move_self]
      change Fits _ _ _ s.calculator (s.pipe ++ [a])
      rw [hc, hpipe]
      exact Fits.writing_b a b
    · simp only [move_self]
      exact nofun
  case writing_b a b =>
    -- With the second bound the interval is complete.
    rcases fits_writing_b hfits with ⟨hc, hholds⟩
    have hread : s.hasEnd .read := Or.inl hc
    rw [if_pos hread] at hstep
    rw [← Option.some.inj hstep]
    refine ⟨⟨?_, h.sublist⟩, fun _ => ?_⟩
    · simp only [move_self]
      exact Fits.requested a b _ Requested.closing_write _ _ hholds
    · simp only [move_self]
      exact nofun
  case closing_write a b =>
    -- What is in the FIFO stays there only if the calculator has it open.
    rcases fits_requested hfits with ⟨hfits', hkept⟩
    rw [← Option.some.inj hstep]
    refine ⟨sound_release ⟨?_, h.sublist⟩ ?_, fun _ => ?_⟩
    · rw [move_self]
      exact hfits'
    · exact hkept.imp id fun hread => (hasEnd_one _ _).mpr (Or.inl hread)
    · rw [release_sender, move_self]
      exact nofun
  case fetching a b =>
    rw [← Option.some.inj hstep]
    cases fails with
    | true =>
        refine ⟨⟨?_, h.sublist⟩, fun _ => ?_⟩
        · rw [if_pos rfl, move_self]
          exact fits_give_up hfits
        · rw [if_pos rfl, move_self]
          exact nofun
    | false =>
        refine ⟨sound_rendezvous ?_ h.sublist, fun _ hgone => ?_⟩
        · rw [move_self]
          exact fits_fetch hfits
        · have hgone' := rendezvous_gone _ hgone
          rw [move_self] at hgone'
          cases hgone'
  case reading a b =>
    rcases fits_reading hfits with ⟨integralResult, hfresh, ⟨hc, hpipe⟩ | ⟨hc, hpipe⟩⟩
    · -- The calculator has the FIFO open for writing, so the sender waits.
      have hwrite : s.hasEnd .write := Or.inl (by rw [hc]; rfl)
      simp only [hpipe, if_pos hwrite] at hstep
      cases hstep
    · -- The answer is there, and it is that to the last interval computed.
      simp only [hpipe] at hstep
      rw [← Option.some.inj hstep]
      refine ⟨⟨?_, ?_⟩, fun _ => ?_⟩
      · simp only [move_self]
        exact Fits.closing_read _ hc
      · rcases hfresh with ⟨before, hcomputed, hbefore⟩
        change (s.reported ++ _).Sublist s.computed
        rw [hcomputed]
        exact hbefore.append (List.Sublist.refl _)
      · simp only [move_self]
        exact nofun
  case closing_read =>
    rcases fits_closing_read hfits with ⟨hc, hpipe⟩
    rw [← Option.some.inj hstep]
    refine ⟨sound_release ⟨?_, h.sublist⟩ (Or.inl hpipe), fun _ => ?_⟩
    · rw [move_self]
      change Fits _ _ _ s.calculator s.pipe
      rw [hpipe]
      exact Fits.idle _ rfl _ (written_idle hc)
    · rw [release_sender, move_self]
      exact nofun

/-- The calculator opens the FIFO for reading. -/
theorem fits_listen {computed reported : List (Integral Double)} {place : Sender Double}
    {pipe : List Double} (h : Fits computed reported place .listening pipe) :
    Fits computed reported
      (if meet place .opening_read then place.admitted else place)
      (if meet place .opening_read then Calculator.admitted .opening_read else .opening_read)
      pipe := by
  cases h with
  | idle _ hidle =>
      cases place <;> first
        | exact Fits.idle _ rfl _ (Or.inr Dropped.opening_read)
        | cases hidle
  | given_up _ _ _ _ _ _ hc => cases hc
  | opening_write a b => exact Fits.writing_a a b
  | requested _ _ _ _ _ _ hc => cases hc
  | dropped a b _ hplace =>
      -- Who has not closed the FIFO yet lets the calculator in.
      cases hplace with
      | closing_write => exact Fits.dropped a b _ Requested.closing_write _ Dropped.reading_a
      | fetching => exact Fits.dropped a b _ Requested.fetching _ Dropped.opening_read
      | opening_read => exact Fits.dropped a b _ Requested.opening_read _ Dropped.opening_read
  | written a b v hfresh => exact Fits.written a b v hfresh _ Written.opening_read
  | closing_read => exact Fits.closing_read _ Written.opening_read

/-- The calculator opens the FIFO for writing. -/
theorem fits_answer {computed reported : List (Integral Double)} {place : Sender Double}
    {integralResult : Double} {pipe : List Double}
    (h : Fits computed reported place (.answering integralResult) pipe) :
    Fits computed reported
      (if meet place (.opening_write integralResult) then place.admitted else place)
      (if meet place (.opening_write integralResult) then
        Calculator.admitted (.opening_write integralResult) else .opening_write integralResult)
      pipe := by
  cases h with
  | idle _ _ _ hc => rcases hc with hc | hc <;> cases hc
  | given_up _ hidle a b _ _ hc =>
      cases hc with
      | answering _ hfresh =>
          cases place <;> first
            | exact Fits.given_up _ rfl a b _ _ (Holds.opening_write integralResult hfresh)
            | cases hidle
  | opening_write a b => exact Fits.opening_write a b _ (Apart.opening_write integralResult)
  | requested a b _ hplace _ _ hc =>
      cases hc with
      | answering _ hfresh =>
          have hholds := Holds.opening_write (a := a) (b := b) integralResult hfresh
          cases hplace with
          | closing_write => exact Fits.requested a b _ Requested.closing_write _ _ hholds
          | fetching => exact Fits.requested a b _ Requested.fetching _ _ hholds
          | opening_read => exact Fits.answered a b integralResult hfresh
  | dropped _ _ _ _ _ hc => cases hc
  | written _ _ _ _ _ hc => cases hc
  | closing_read _ hc => cases hc

/-- The calculator fails to open the FIFO for writing. -/
theorem fits_drop {computed reported : List (Integral Double)} {place : Sender Double}
    {integralResult : Double} {pipe : List Double}
    (h : Fits computed reported place (.answering integralResult) pipe) :
    Fits computed reported place .listening pipe := by
  cases h with
  | idle _ _ _ hc => rcases hc with hc | hc <;> cases hc
  | given_up _ hidle _ _ _ _ hc =>
      cases hc
      exact Fits.idle _ hidle _ (Or.inr Dropped.listening)
  | opening_write a b => exact Fits.opening_write a b _ Apart.listening
  | requested a b _ hplace _ _ hc =>
      cases hc
      exact Fits.dropped a b _ hplace _ Dropped.listening
  | dropped _ _ _ _ _ hc => cases hc
  | written _ _ _ _ _ hc => cases hc
  | closing_read _ hc => cases hc

/-- The calculator reads the first bound, if there is one. -/
theorem fits_read_a {computed reported : List (Integral Double)} {place : Sender Double}
    {pipe : List Double} (h : Fits computed reported place .reading_a pipe) :
    (∃ a rest, pipe = a :: rest ∧ Fits computed reported place (.reading_b a) rest) ∨
      pipe = [] ∧ (place.has = some .write ∨
        Fits computed reported place (.closing_read none) []) := by
  cases h with
  | idle _ hidle => exact Or.inr ⟨rfl, Or.inr (Fits.idle _ hidle _ (Or.inr Dropped.closing_read))⟩
  | given_up _ hidle a b _ _ hc =>
      cases hc
      exact Or.inl ⟨a, [b], rfl, Fits.given_up _ hidle a b _ _ Holds.reading_b⟩
  | opening_write _ _ _ hc => cases hc
  | writing_a => exact Or.inr ⟨rfl, Or.inl rfl⟩
  | writing_b a b => exact Or.inl ⟨a, [], rfl, Fits.writing_b_read a b⟩
  | requested a b _ hplace _ _ hc =>
      cases hc
      exact Or.inl ⟨a, [b], rfl, Fits.requested a b _ hplace _ _ Holds.reading_b⟩
  | dropped a b _ hplace =>
      exact Or.inr ⟨rfl, Or.inr (Fits.dropped a b _ hplace _ Dropped.closing_read)⟩
  | written _ _ _ _ _ hc => cases hc
  | closing_read _ hc => cases hc

/-- The calculator reads the second bound: it comes. -/
theorem fits_read_b {computed reported : List (Integral Double)} {place : Sender Double}
    {a : Double} {pipe : List Double} (h : Fits computed reported place (.reading_b a) pipe) :
    (∃ b rest, pipe = b :: rest ∧
      Fits computed reported place (.closing_read (some (a, b))) rest) ∨
      pipe = [] ∧ place.has = some .write := by
  cases h with
  | idle _ _ _ hc => rcases hc with hc | hc <;> cases hc
  | given_up _ hidle _ b _ _ hc =>
      cases hc
      exact Or.inl ⟨b, [], rfl, Fits.given_up _ hidle a b _ _ Holds.closing_read⟩
  | opening_write _ _ _ hc => cases hc
  | writing_b_read => exact Or.inr ⟨rfl, rfl⟩
  | requested _ b _ hplace _ _ hc =>
      cases hc
      exact Or.inl ⟨b, [], rfl, Fits.requested a b _ hplace _ _ Holds.closing_read⟩
  | dropped _ _ _ _ _ hc => cases hc
  | written _ _ _ _ _ hc => cases hc
  | closing_read _ hc => cases hc

/-- The calculator closes the FIFO after reading. Nothing is in it, or somebody
    who writes has it open. -/
theorem fits_close_read {computed reported : List (Integral Double)} {place : Sender Double}
    {interval : Option (Double × Double)} {pipe : List Double}
    (h : Fits computed reported place (.closing_read interval) pipe) :
    pipe = [] ∧ Fits computed reported place
      (interval.elim .listening fun ab => .integrating ab.1 ab.2) [] := by
  cases h with
  | idle _ hidle _ hc =>
      rcases hc with hc | hc <;> cases hc
      exact ⟨rfl, Fits.idle _ hidle _ (Or.inr Dropped.listening)⟩
  | given_up _ hidle a b _ _ hc =>
      cases hc
      exact ⟨rfl, Fits.given_up _ hidle a b _ _ Holds.integrating⟩
  | opening_write _ _ _ hc => cases hc
  | requested a b _ hplace _ _ hc =>
      cases hc
      exact ⟨rfl, Fits.requested a b _ hplace _ _ Holds.integrating⟩
  | dropped a b _ hplace _ hc =>
      cases hc
      exact ⟨rfl, Fits.dropped a b _ hplace _ Dropped.listening⟩
  | written _ _ _ _ _ hc => cases hc
  | closing_read _ hc => cases hc

/-- The calculator computes an integral, which is then the last one. -/
theorem fits_integrate {computed reported : List (Integral Double)} {place : Sender Double}
    {a b : Double} {pipe : List Double}
    (h : Fits computed reported place (.integrating a b) pipe)
    (hsublist : reported.Sublist computed) (total : Double) :
    Fits (computed ++ [⟨a, b, total⟩]) reported place (.answering total) pipe ∧
      Fits computed reported place .gone pipe := by
  have hfresh : Fresh (computed ++ [⟨a, b, total⟩]) reported ⟨a, b, total⟩ :=
    ⟨computed, rfl, hsublist⟩
  cases h with
  | idle _ _ _ hc => rcases hc with hc | hc <;> cases hc
  | given_up _ hidle _ _ _ _ hc =>
      cases hc
      exact ⟨Fits.given_up _ hidle a b _ _ (Holds.answering total hfresh),
        Fits.idle _ hidle _ (Or.inr Dropped.gone)⟩
  | opening_write a' b' =>
      exact ⟨Fits.opening_write a' b' _ (Apart.answering total),
        Fits.opening_write a' b' _ Apart.gone⟩
  | requested _ _ _ hplace _ _ hc =>
      cases hc
      exact ⟨Fits.requested a b _ hplace _ _ (Holds.answering total hfresh),
        Fits.dropped a b _ hplace _ Dropped.gone⟩
  | dropped _ _ _ _ _ hc => cases hc
  | written _ _ _ _ _ hc => cases hc
  | closing_read _ hc => cases hc

/-- The calculator writes its answer, to the sender it is for. -/
theorem fits_write {computed reported : List (Integral Double)} {place : Sender Double}
    {integralResult : Double} {pipe : List Double}
    (h : Fits computed reported place (.writing integralResult) pipe) :
    place.has = some .read ∧
      Fits computed reported place .closing_write (pipe ++ [integralResult]) := by
  cases h with
  | idle _ _ _ hc => rcases hc with hc | hc <;> cases hc
  | given_up _ _ _ _ _ _ hc => cases hc
  | opening_write _ _ _ hc => cases hc
  | requested _ _ _ _ _ _ hc => cases hc
  | dropped _ _ _ _ _ hc => cases hc
  | answered a b _ hfresh =>
      exact ⟨rfl, Fits.written a b integralResult hfresh _ Written.closing_write⟩
  | written _ _ _ _ _ hc => cases hc
  | closing_read _ hc => cases hc

/-- The calculator closes the FIFO after writing. The answer is gone, or its
    sender has the FIFO open. -/
theorem fits_close_write {computed reported : List (Integral Double)} {place : Sender Double}
    {pipe : List Double} (h : Fits computed reported place .closing_write pipe) :
    Fits computed reported place .listening pipe ∧ (pipe = [] ∨ place.has = some .read) := by
  cases h with
  | idle _ hidle => exact ⟨Fits.idle _ hidle _ (Or.inr Dropped.listening), Or.inl rfl⟩
  | given_up _ _ _ _ _ _ hc => cases hc
  | opening_write a b => exact ⟨Fits.opening_write a b _ Apart.listening, Or.inl rfl⟩
  | requested _ _ _ _ _ _ hc => cases hc
  | dropped _ _ _ _ _ hc => cases hc
  -- The answer is kept, since its sender has the FIFO open.
  | written a b v hfresh => exact ⟨Fits.written a b v hfresh _ Written.listening, Or.inr rfl⟩
  | closing_read => exact ⟨Fits.closing_read _ Written.listening, Or.inl rfl⟩

/-- A step of the calculator keeps the invariant. -/
theorem sound_calculator (h : Sound s) {fails : Bool} {total : Double}
    (hstep : calculator s fails total = some s') : Sound s' := by
  have hfits := h.fits
  unfold calculator at hstep
  cases hc : s.calculator <;> simp only [hc] at hstep hfits
  case listening =>
    rw [← Option.some.inj hstep]
    cases fails with
    | true => exact h
    | false => exact sound_rendezvous (fits_listen hfits) h.sublist
  case opening_read => cases hstep
  case reading_a =>
    -- A bound is there, or a writer that is to come, or the end of the file.
    rcases fits_read_a hfits with ⟨a, rest, hpipe, hfits'⟩ | ⟨hpipe, hwrite | hfits'⟩
    · simp only [hpipe] at hstep
      rw [← Option.some.inj hstep]
      exact ⟨hfits', h.sublist⟩
    · simp only [hpipe, if_pos ((hasEnd_one s .write).mpr (Or.inr hwrite))] at hstep
      cases hstep
    · simp only [hpipe] at hstep
      split_ifs at hstep
      rw [← Option.some.inj hstep]
      exact ⟨hfits', h.sublist⟩
  case reading_b a =>
    rcases fits_read_b hfits with ⟨b, rest, hpipe, hfits'⟩ | ⟨hpipe, hwrite⟩
    · simp only [hpipe] at hstep
      rw [← Option.some.inj hstep]
      exact ⟨hfits', h.sublist⟩
    · simp only [hpipe, if_pos ((hasEnd_one s .write).mpr (Or.inr hwrite))] at hstep
      cases hstep
  case closing_read interval =>
    -- Everything has been read, so that closing loses nothing.
    rcases fits_close_read hfits with ⟨hpipe, hfits'⟩
    rw [← hpipe] at hfits'
    cases interval with
    | none =>
        rw [← Option.some.inj hstep]
        exact sound_release ⟨hfits', h.sublist⟩ (Or.inl hpipe)
    | some ab =>
        rw [← Option.some.inj hstep]
        exact sound_release ⟨hfits', h.sublist⟩ (Or.inl hpipe)
  case integrating a b =>
    -- A calculator that fails to create its workers is gone.
    rcases fits_integrate hfits h.sublist total with ⟨hfits', hgone⟩
    rw [← Option.some.inj hstep]
    cases fails with
    | true => exact ⟨hgone, h.sublist⟩
    | false => exact ⟨hfits', h.sublist.trans (List.sublist_append_left _ _)⟩
  case answering integralResult =>
    rw [← Option.some.inj hstep]
    cases fails with
    | true => exact ⟨fits_drop hfits, h.sublist⟩
    | false => exact sound_rendezvous (fits_answer hfits) h.sublist
  case opening_write => cases hstep
  case writing integralResult =>
    rcases fits_write hfits with ⟨hread, hfits'⟩
    rw [if_pos ((hasEnd_one s .read).mpr (Or.inr hread))] at hstep
    rw [← Option.some.inj hstep]
    exact ⟨hfits', h.sublist⟩
  case closing_write =>
    rcases fits_close_write hfits with ⟨hfits', hkept⟩
    rw [← Option.some.inj hstep]
    refine sound_release ⟨hfits', h.sublist⟩ ?_
    exact hkept.imp id fun hread => (hasEnd_one _ _).mpr (Or.inr hread)
  case gone => cases hstep

theorem sound_start : Sound (start 1 Double) :=
  ⟨Fits.idle _ rfl _ (Or.inr Dropped.listening), List.Sublist.refl _⟩

theorem sound_step {greater : Double → Double → Bool} (h : Sound s) {e : Event 1 Double}
    (halone : Alone s e) (hstep : step greater s e = some s') : Sound s' := by
  cases e with
  | input i line =>
      obtain rfl : i = 0 := Subsingleton.elim i 0
      have hfits := h.fits
      simp only [step] at hstep
      cases hplace : s.sender 0 <;> simp only [hplace, reduceCtorEq] at hstep
      rw [hplace] at hfits
      cases line with
      | quit =>
          rw [← Option.some.inj hstep]
          refine ⟨?_, h.sublist⟩
          rw [move_self]
          exact fits_idle hfits rfl rfl
      | invalid => exact Option.some.inj hstep ▸ h
      | interval a b =>
          rw [← Option.some.inj hstep]
          by_cases hgreater : greater a b = true
          · rw [if_pos hgreater]
            exact h
          · rw [if_neg hgreater]
            refine ⟨?_, h.sublist⟩
            rw [move_self]
            exact fits_idle hfits rfl rfl
  | sender i fails =>
      obtain rfl : i = 0 := Subsingleton.elim i 0
      exact (sound_sender h halone hstep).1
  | calculator fails total => exact sound_calculator h hstep

end One

/-- The service to many senders looks like the service to one: the only one that
    is busy stands where that one stands. -/
structure Sees (s : State n Double) (t : State 1 Double) : Prop where
  pipe : s.pipe = t.pipe
  calculator : s.calculator = t.calculator
  computed : s.computed = t.computed
  reported : s.reported = t.reported
  sender : (∃ i, s.sender i = t.sender 0 ∧ (t.sender 0).busy = true ∧
      ∀ j, j ≠ i → (s.sender j).busy = false) ∨
    t.sender 0 = .entering ∧ ∀ j, (s.sender j).busy = false

section Simulation

variable {s s' : State n Double} {t : State 1 Double}

/-- Who is not busy has no end open, waits for none, and stays where it is. -/
theorem idle_apart {place : Sender Double} (hidle : place.busy = false) :
    place.has = none ∧ place.wants = none ∧ place.admitted = place := by
  cases place <;> first | exact ⟨rfl, rfl, rfl⟩ | cases hidle

theorem idle_of_opens {place : Sender Double} (hopens : place.opens = true) :
    place.busy = false := by
  cases place <;> first | rfl | cases hopens

/-- Only the busy sender counts. -/
theorem exists_sender_iff (h : Sees s t) {f : Sender Double → Option End}
    (hf : ∀ place, place.busy = false → f place = none) (e : End) :
    (∃ i, f (s.sender i) = some e) ↔ ∃ i, f (t.sender i) = some e := by
  rw [Fin.exists_fin_one]
  rcases h.sender with ⟨i, hi, _, hrest⟩ | ⟨hentering, hrest⟩
  · rw [← hi]
    refine ⟨fun ⟨j, hj⟩ => ?_, fun hj => ⟨i, hj⟩⟩
    by_cases hji : j = i
    · exact hji ▸ hj
    · rw [hf _ (hrest j hji)] at hj
      cases hj
  · rw [hentering, hf _ rfl]
    refine ⟨fun ⟨j, hj⟩ => ?_, fun hj => by cases hj⟩
    rw [hf _ (hrest j)] at hj
    exact hj

theorem sees_hasEnd (h : Sees s t) (e : End) : s.hasEnd e ↔ t.hasEnd e := by
  unfold State.hasEnd
  rw [h.calculator, exists_sender_iff h (f := Sender.has) fun _ hidle => (idle_apart hidle).1]

theorem sees_present (h : Sees s t) (e : End) : s.present e ↔ t.present e := by
  unfold State.present
  rw [sees_hasEnd h, h.calculator,
    exists_sender_iff h (f := Sender.wants) fun _ hidle => (idle_apart hidle).2.1]

theorem sees_release (h : Sees s t) : Sees s.release t.release := by
  unfold State.release
  simp only [sees_hasEnd h]
  split_ifs
  · exact h
  · exact ⟨rfl, h.calculator, h.computed, h.reported, h.sender⟩

theorem busy_admitted (place : Sender Double) : place.admitted.busy = place.busy := by
  cases place <;> rfl

theorem sees_rendezvous (h : Sees s t) : Sees s.rendezvous t.rendezvous := by
  unfold State.rendezvous
  simp only [sees_present h]
  split_ifs
  · refine ⟨h.pipe, congrArg Calculator.admitted h.calculator, h.computed, h.reported, ?_⟩
    simp only [busy_admitted]
    rcases h.sender with ⟨i, hi, hbusy, hrest⟩ | ⟨hentering, hrest⟩
    · exact Or.inl ⟨i, congrArg Sender.admitted hi, hbusy, hrest⟩
    · exact Or.inr ⟨by rw [hentering]; rfl, hrest⟩
  · exact h

/-- The sender that may be busy goes on. -/
theorem sees_move (h : Sees s t) {i : Fin n} (hrest : ∀ j, j ≠ i → (s.sender j).busy = false)
    {place : Sender Double} (hplace : place.busy = true ∨ place = .entering) :
    Sees (s.move i place) (t.move 0 place) := by
  refine ⟨h.pipe, h.calculator, h.computed, h.reported, ?_⟩
  rw [move_self]
  rcases hplace with hbusy | rfl
  · refine Or.inl ⟨i, move_self s i place, hbusy, fun j hj => ?_⟩
    rw [move_of_ne s hj]
    exact hrest j hj
  · refine Or.inr ⟨rfl, fun j => ?_⟩
    by_cases hji : j = i
    · rw [hji, move_self]
      rfl
    · rw [move_of_ne s hji]
      exact hrest j hji

/-- A sender that is not busy stays so. -/
theorem sees_aside (h : Sees s t) {i : Fin n} {place : Sender Double} (hi : s.sender i = place)
    (hidle : place.busy = false) (place' : Sender Double) (hidle' : place'.busy = false) :
    Sees (s.move i place') t := by
  refine ⟨h.pipe, h.calculator, h.computed, h.reported, ?_⟩
  have hsame : ∀ j, (s.sender j).busy = false → ((s.move i place').sender j).busy = false := by
    intro j hj
    by_cases hji : j = i
    · rw [hji, move_self]
      exact hidle'
    · rw [move_of_ne s hji]
      exact hj
  rcases h.sender with ⟨j, hj, hbusy, hrest⟩ | ⟨hentering, hrest⟩
  · have hji : j ≠ i := by
      rintro rfl
      rw [← hj, hi, hidle] at hbusy
      cases hbusy
    refine Or.inl ⟨j, ?_, hbusy, fun k hk => hsame k (hrest k hk)⟩
    rw [move_of_ne s hji]
    exact hj
  · exact Or.inr ⟨hentering, fun k => hsame k (hrest k)⟩

/-- A value is written into both FIFOs. -/
theorem sees_written (h : Sees s t) (v : Double) :
    Sees { s with pipe := s.pipe ++ [v] } { t with pipe := t.pipe ++ [v] } :=
  ⟨congrArg (· ++ [v]) h.pipe, h.calculator, h.computed, h.reported, h.sender⟩

/-- What a busy sender does is what the only one does there, unless it is
    killed. -/
theorem sees_sender (h : Sees s t) {i : Fin n} (hi : s.sender i = t.sender 0)
    (hbusy : (t.sender 0).busy = true) (hrest : ∀ j, j ≠ i → (s.sender j).busy = false)
    {fails : Bool} (hstep : sender s i fails = some s') :
    ∃ t', sender t 0 fails = some t' ∧ (t'.sender 0 ≠ .gone → Sees s' t') := by
  have hmove : ∀ place : Sender Double, place.busy = true ∨ place = .entering →
      Sees (s.move i place) (t.move 0 place) := fun place => sees_move h hrest
  unfold sender at hstep ⊢
  rw [hi] at hstep
  cases hplace : t.sender 0 <;> simp only [hplace] at hstep hbusy ⊢
  case entering => cases hbusy
  case requesting => cases hbusy
  case gone => cases hbusy
  case opening_write => cases hstep
  case opening_read => cases hstep
  case writing_a a b =>
    simp only [sees_hasEnd h] at hstep
    refine ⟨_, rfl, fun hgone => ?_⟩
    rw [← Option.some.inj hstep]
    split_ifs with hread
    · exact sees_written (hmove (.writing_b a b) (Or.inl rfl)) a
    · -- Without a reader it would be killed.
      rw [if_neg hread, release_sender, move_self] at hgone
      exact absurd rfl hgone
  case writing_b a b =>
    simp only [sees_hasEnd h] at hstep
    refine ⟨_, rfl, fun hgone => ?_⟩
    rw [← Option.some.inj hstep]
    split_ifs with hread
    · exact sees_written (hmove (.closing_write a b) (Or.inl rfl)) b
    · rw [if_neg hread, release_sender, move_self] at hgone
      exact absurd rfl hgone
  case closing_write a b =>
    refine ⟨_, rfl, fun _ => ?_⟩
    rw [← Option.some.inj hstep]
    exact sees_release (hmove _ (Or.inl rfl))
  case fetching a b =>
    refine ⟨_, rfl, fun _ => ?_⟩
    rw [← Option.some.inj hstep]
    cases fails with
    | true => exact hmove .entering (Or.inr rfl)
    | false => exact sees_rendezvous (hmove _ (Or.inl rfl))
  case reading a b =>
    cases hpipe : t.pipe with
    | nil =>
        simp only [h.pipe, hpipe, sees_hasEnd h] at hstep ⊢
        split_ifs at hstep ⊢ with hwrite
        refine ⟨_, rfl, fun _ => ?_⟩
        rw [← Option.some.inj hstep]
        exact hmove .closing_read (Or.inl rfl)
    | cons result pipe =>
        simp only [h.pipe, hpipe] at hstep ⊢
        refine ⟨_, rfl, fun _ => ?_⟩
        rw [← Option.some.inj hstep]
        have hsees := hmove .closing_read (Or.inl rfl)
        exact ⟨rfl, h.calculator, h.computed, congrArg (· ++ [_]) h.reported, hsees.sender⟩
  case closing_read =>
    refine ⟨_, rfl, fun _ => ?_⟩
    rw [← Option.some.inj hstep]
    exact sees_release (hmove .entering (Or.inr rfl))

/-- The calculator does the same in both. -/
theorem sees_calculator (h : Sees s t) {fails : Bool} {total : Double}
    (hstep : calculator s fails total = some s') :
    ∃ t', calculator t fails total = some t' ∧ Sees s' t' := by
  have hset : ∀ (c : Calculator Double), Sees { s with calculator := c } { t with calculator := c } :=
    fun c => ⟨h.pipe, rfl, h.computed, h.reported, h.sender⟩
  have hread : ∀ (c : Calculator Double) (pipe : List Double),
      Sees { s with calculator := c, pipe := pipe } { t with calculator := c, pipe := pipe } :=
    fun c pipe => ⟨rfl, rfl, h.computed, h.reported, h.sender⟩
  unfold calculator at hstep ⊢
  rw [h.calculator] at hstep
  cases hc : t.calculator <;> simp only [hc] at hstep ⊢
  case listening =>
    refine ⟨_, rfl, ?_⟩
    rw [← Option.some.inj hstep]
    cases fails with
    | true => exact h
    | false => exact sees_rendezvous (hset _)
  case opening_read => cases hstep
  case reading_a =>
    cases hpipe : t.pipe with
    | nil =>
        simp only [h.pipe, hpipe, sees_hasEnd h] at hstep ⊢
        split_ifs at hstep ⊢ with hwrite
        refine ⟨_, rfl, ?_⟩
        rw [← Option.some.inj hstep]
        exact hread (.closing_read none) []
    | cons a pipe =>
        simp only [h.pipe, hpipe] at hstep ⊢
        refine ⟨_, rfl, ?_⟩
        rw [← Option.some.inj hstep]
        exact hread (.reading_b a) pipe
  case reading_b a =>
    cases hpipe : t.pipe with
    | nil =>
        simp only [h.pipe, hpipe, sees_hasEnd h] at hstep ⊢
        split_ifs at hstep ⊢ with hwrite
        refine ⟨_, rfl, ?_⟩
        rw [← Option.some.inj hstep]
        exact hread (.closing_read none) []
    | cons b pipe =>
        simp only [h.pipe, hpipe] at hstep ⊢
        refine ⟨_, rfl, ?_⟩
        rw [← Option.some.inj hstep]
        exact hread (.closing_read (some (a, b))) pipe
  case closing_read interval =>
    cases interval with
    | none =>
        refine ⟨_, rfl, ?_⟩
        rw [← Option.some.inj hstep]
        exact sees_release (hset _)
    | some ab =>
        refine ⟨_, rfl, ?_⟩
        rw [← Option.some.inj hstep]
        exact sees_release (hset _)
  case integrating a b =>
    refine ⟨_, rfl, ?_⟩
    rw [← Option.some.inj hstep]
    cases fails with
    | true => exact hset _
    | false => exact ⟨h.pipe, rfl, congrArg (· ++ [_]) h.computed, h.reported, h.sender⟩
  case answering integralResult =>
    refine ⟨_, rfl, ?_⟩
    rw [← Option.some.inj hstep]
    cases fails with
    | true => exact hset _
    | false => exact sees_rendezvous (hset _)
  case opening_write => cases hstep
  case writing integralResult =>
    simp only [sees_hasEnd h] at hstep
    refine ⟨_, rfl, ?_⟩
    rw [← Option.some.inj hstep]
    split_ifs
    · exact sees_written (hset .closing_write) integralResult
    · exact sees_release (hset _)
  case closing_write =>
    refine ⟨_, rfl, ?_⟩
    rw [← Option.some.inj hstep]
    exact sees_release (hset _)
  case gone => cases hstep

/-- A sender that is not busy gets no further than its own line, or begins a
    round: the only sender is given that interval. -/
theorem sees_idle (h : Sees s t) {i : Fin n} (hidle : (s.sender i).busy = false) {fails : Bool}
    (halone : Alone s (.sender i fails)) (hstep : sender s i fails = some s') :
    ∃ t', Reaches (step fun _ _ => false) Alone t t' ∧ Sees s' t' := by
  unfold sender at hstep
  cases hplace : s.sender i <;> simp only [hplace, reduceCtorEq] at hstep hidle
  case requesting a b =>
    cases fails with
    | true =>
        refine ⟨t, Reaches.refl, ?_⟩
        rw [← Option.some.inj hstep]
        exact sees_aside h hplace rfl .entering rfl
    | false =>
        rcases halone rfl (by rw [hplace]; rfl) with ⟨hrest, hread⟩
        have hentering : t.sender 0 = .entering := by
          rcases h.sender with ⟨j, hj, hbusy, _⟩ | ⟨hentering, _⟩
          · -- The other one would be busy.
            by_cases hji : j = i
            · rw [← hj, hji, hplace] at hbusy
              cases hbusy
            · rw [← hj, hrest j hji] at hbusy
              cases hbusy
          · exact hentering
        have hline : step (fun _ _ => false) t (.input 0 (.interval a b)) =
            some (t.move 0 (.requesting a b)) := by
          simp only [step, hentering, input, Bool.false_eq_true, if_false]
        have hopen : step (fun _ _ => false) (t.move 0 (.requesting a b)) (.sender 0 false) =
            some ((t.move 0 (.requesting a b)).move 0 (.opening_write a b)).rendezvous := by
          simp only [step, sender, move_self, Bool.false_eq_true, if_false]
        have hok : Alone (t.move 0 (.requesting a b)) (.sender 0 false) :=
          fun _ _ => ⟨fun j hj => absurd (Subsingleton.elim j 0) hj, by
            simp only [State.move]
            rw [← h.calculator]
            exact hread⟩
        have hfirst : Reaches (step fun _ _ => false) Alone t (t.move 0 (.requesting a b)) :=
          Reaches.step t _ (.input 0 (.interval a b)) Reaches.refl trivial hline
        refine ⟨_, Reaches.step _ _ _ hfirst hok hopen, ?_⟩
        rw [← Option.some.inj hstep]
        have hsees : Sees (s.move i (.opening_write a b)) (t.move 0 (.opening_write a b)) :=
          sees_move h hrest (Or.inl rfl)
        refine sees_rendezvous ?_
        rw [move_move]
        exact hsees
  all_goals cases hidle

/-- Every step is one of the service to a single sender, or of none there. -/
theorem sees_step {greater : Double → Double → Bool} (h : Sees s t) (ht : Sound t)
    {e : Event n Double} (halone : Alone s e) (hstep : step greater s e = some s') :
    ∃ t', Reaches (step fun _ _ => false) Alone t t' ∧ Sees s' t' := by
  cases e with
  | input i line =>
      refine ⟨t, Reaches.refl, ?_⟩
      simp only [step] at hstep
      cases hplace : s.sender i <;> simp only [hplace, reduceCtorEq] at hstep
      cases line with
      | quit => exact Option.some.inj hstep ▸ sees_aside h hplace rfl .gone rfl
      | invalid => exact Option.some.inj hstep ▸ h
      | interval a b =>
          rw [← Option.some.inj hstep]
          split_ifs
          · exact h
          · exact sees_aside h hplace rfl (.requesting a b) rfl
  | sender i fails =>
      cases hbusy : (s.sender i).busy with
      | false => exact sees_idle h hbusy halone hstep
      | true =>
          rcases h.sender with ⟨j, hj, hbusy', hrest⟩ | ⟨_, hrest⟩
          · obtain rfl : i = j := by
              by_contra hij
              rw [hrest i hij] at hbusy
              cases hbusy
            rcases sees_sender h hj hbusy' hrest hstep with ⟨t', hstep', hsees⟩
            have hok : Alone t (.sender 0 fails) := by
              intro _ hopens
              rw [idle_of_opens hopens] at hbusy'
              cases hbusy'
            exact ⟨t', Reaches.step t t' (.sender 0 fails) Reaches.refl hok hstep',
              hsees ((sound_sender ht hok hstep').2 hbusy')⟩
          · rw [hrest i] at hbusy
            cases hbusy
  | calculator fails total =>
      rcases sees_calculator h hstep with ⟨t', hstep', hsees⟩
      exact ⟨t', Reaches.step t t' (.calculator fails total) Reaches.refl trivial hstep', hsees⟩

end Simulation

/-- As long as a sender opens the FIFO for writing only while no other is busy,
    the service to any number of senders looks like a run of the service to a
    single one. -/
theorem serves_one {greater : Double → Double → Bool} {s : State n Double}
    (hreach : Reaches (step greater) Alone (start n Double) s) :
    ∃ t : State 1 Double, Reaches (step fun _ _ => false) Alone (start 1 Double) t ∧ Sees s t := by
  have hstart : Sees (start n Double) (start 1 Double) :=
    ⟨rfl, rfl, rfl, rfl, Or.inr ⟨rfl, fun _ => rfl⟩⟩
  -- The single sender's run is made up step by step along the other one.
  induction hreach with
  | refl => exact ⟨start 1 Double, Reaches.refl, hstart⟩
  | step s s' e _ halone hstep ih =>
    rcases ih with ⟨t, hpath, hsees⟩
    have ht : Sound t := hpath.invariant sound_start fun _ _ _ h hok hnext => sound_step h hok hnext
    rcases sees_step hsees ht halone hstep with ⟨t', hmore, hsees'⟩
    exact ⟨t', hpath.trans hmore, hsees'⟩

/-- For any number of senders and any interleaving in which a sender opens the
    FIFO for writing only while no other sender is between that and its `close`
    after reading, and the calculator does not have it open for reading: every
    result a sender reports is the integral computed for the interval it wrote,
    each by a computation of its own, in order. -/
theorem answered_while_alone (n : Nat) (Double : Type) (greater : Double → Double → Bool)
    (s : State n Double) (hreach : Reaches (step greater) Alone (start n Double) s) :
    Answered s ∧ s.reported.Sublist s.computed := by
  rcases serves_one hreach with ⟨t, hpath, hsees⟩
  have ht : Sound t := hpath.invariant sound_start fun _ _ _ h hok hnext => sound_step h hok hnext
  have hsublist : s.reported.Sublist s.computed := by
    rw [hsees.reported, hsees.computed]
    exact ht.sublist
  exact ⟨fun r hr => hsublist.subset hr, hsublist⟩

/-- A round of a sender and of the calculator, up to where the calculator has
    closed the FIFO. The sender waits for its answer. -/
def asked (i : Fin 2) (a b : Nat) : List (Event 2 Nat) :=
  [.input i (.interval a b), .sender i false, .calculator false 0, .sender i false,
    .sender i false, .calculator false 0, .calculator false 0, .sender i false,
    .sender i false, .calculator false 0]

/-- The rest of the round. -/
def told (i : Fin 2) (total : Nat) : List (Event 2 Nat) :=
  [.calculator false total, .calculator false 0, .calculator false 0, .sender i false,
    .calculator false 0, .sender i false]

theorem answered_while_alone_run :
    ∃ s, run (step fun a b : Nat => decide (b < a)) (start 2 Nat)
        (asked 0 1 2 ++ told 0 10 ++ asked 1 3 4 ++ told 1 20) = some s ∧
      s.reported = [⟨1, 2, 10⟩, ⟨3, 4, 20⟩] ∧ Answered s := by
  have hmeets : Meets (step fun a b : Nat => decide (b < a)) Alone (start 2 Nat)
      (asked 0 1 2 ++ told 0 10 ++ asked 1 3 4 ++ told 1 20) := by decide +kernel
  have hend : (run (step fun a b : Nat => decide (b < a)) (start 2 Nat)
      (asked 0 1 2 ++ told 0 10 ++ asked 1 3 4 ++ told 1 20)).map
        (fun s => s.reported) = some [⟨1, 2, 10⟩, ⟨3, 4, 20⟩] := by decide +kernel
  rcases Option.map_eq_some_iff.mp hend with ⟨s, hrun, hreported⟩
  exact ⟨s, hrun, hreported,
    (answered_while_alone 2 Nat _ s (reaches_of_run hrun hmeets)).1⟩

/-- While one sender waits for its answer, another one opens the FIFO for
    writing. -/
def bothAsk (i j : Fin 2) : List (Event 2 Nat) :=
  asked i 1 2 ++ [.input j (.interval 3 4), .sender j false, .sender j false, .sender i false]

theorem bound_taken_for_result :
    ∃ s, run (step fun a b : Nat => decide (b < a)) (start 2 Nat) (bothAsk 0 1) = some s ∧
      s.reported = [⟨1, 2, 3⟩] ∧ s.computed = [] ∧ ¬ Answered s := by
  have hend : (run (step fun a b : Nat => decide (b < a)) (start 2 Nat) (bothAsk 0 1)).map
      (fun s => (s.reported, s.computed)) = some ([⟨1, 2, 3⟩], []) := by decide +kernel
  rcases Option.map_eq_some_iff.mp hend with ⟨s, hrun, hlogs⟩
  rcases Prod.mk.inj hlogs with ⟨hreported, hcomputed⟩
  refine ⟨s, hrun, hreported, hcomputed, fun hanswered => ?_⟩
  have hmem := hanswered ⟨1, 2, 3⟩ (hreported ▸ List.mem_singleton_self _)
  rw [hcomputed] at hmem
  cases hmem

end Lab5

end OsLabs
