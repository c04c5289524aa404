import OsLabs.Core.Lines
import OsLabs.Core.Run
import OsLabs.Lab6.PosixChat
import Mathlib.Logic.Function.Iterate

/-!
# Two Programs and Two Semaphores

`kolos/kwolos/jm/zad2` as a transition system. `wys1` reads lines from its
standard input into a block of shared memory, and `odb1` prints them: it asks for
a line with `id_sem1`, and `wys1` answers with `id_sem0`. Both semaphores are 0 at
first. A line that begins with an exclamation mark is not printed and ends both.

Of the block only the string in it matters, since nothing reads behind its
terminator. It is looked at by both programs, and `writes_alone` says that
neither writes it while the other is where it looks.

`fgets` leaves the block as it is at the end of the input, so the line before is
handed over again, and for ever. The lines that count are what the loop of `wys1`
puts into the block turn by turn, `entry`.

## Main definitions

* `turn`, `entry`: What the loop of `wys1` puts into the block.
* `Ends`: The line ends both programs.
* `Reader`, `Writer`, `State`: Where `odb1` and `wys1` are.
* `reader`, `writer`, `step`, `start`: The transition system.
* `Sound`: Whose turn it is, and how many lines have been handed over.
* `State.left`: The steps left until the line that ends both.

## Theorems

* `reader_moves`, `writer_moves`: Every step is one of these.
* `sound_step`: Every step keeps the invariant.
* `stuck_done`: Nobody waits in vain.
* `step_left`: Every step leaves fewer.
* `printed_in_order`: What is printed, and that no program disturbs the other.
* `ends_together`: When the programs end.
* `lines_shown`: The same for a text of lines.
-/

namespace OsLabs

namespace Kolos

namespace Rendezvous

open Lab6 (fgets)

def ROZM_BLOKU : Nat := 1024

/-- The string without the newline in its last place, if there is one. -/
def stripNewline (wsk : List UInt8) : List UInt8 :=
  if wsk.getLast? = some 10 then wsk.dropLast else wsk

/-- The body of the loop of `wys1`: the string in the block and the input left. -/
def turn (s : List UInt8 × List UInt8) : List UInt8 × List UInt8 :=
  match fgets ROZM_BLOKU s.2 with
  | some (input, rest) => (stripNewline (cstr input), rest)
  | none => (stripNewline s.1, s.2)

/-- The line that is put into the block in the turn number `i`, from 0. -/
def entry (stdin : List UInt8) (i : Nat) : List UInt8 := (turn^[i + 1] ([], stdin)).1

/-- `wsk[0] == '!'`. -/
def Ends (wsk : List UInt8) : Prop := wsk.head? = some 33

instance decidableEnds (wsk : List UInt8) : Decidable (Ends wsk) :=
  inferInstanceAs (Decidable (_ = _))

/-- Where `odb1` is. -/
inductive Reader
  /-- At `wsk[0] = 0`. -/
  | clear
  /-- At the condition of the loop. -/
  | test
  | post
  | wait
  | print
  | done
  deriving DecidableEq

/-- Where `wys1` is. -/
inductive Writer
  | wait
  | gets
  | strip
  | post
  /-- At the condition of the loop. -/
  | test
  | done
  deriving DecidableEq

structure State where
  reader : Reader
  writer : Writer
  sem0 : Nat
  sem1 : Nat
  /-- The string in the block. -/
  wsk : List UInt8
  stdin : List UInt8
  printed : List (List UInt8)
  /-- How many turns of the loop `wys1` has made. -/
  turns : Nat

inductive Event
  | reader
  | writer
  deriving DecidableEq

/-- The next step of `odb1`. -/
def reader (s : State) : Option State :=
  match s.reader with
  | .clear => some { s with wsk := [], reader := .test }
  | .test => some { s with reader := if Ends s.wsk then .done else .post }
  | .post => some { s with sem1 := s.sem1 + 1, reader := .wait }
  | .wait => if 0 < s.sem0 then some { s with sem0 := s.sem0 - 1, reader := .print } else none
  | .print =>
    some { s with
      printed := if Ends s.wsk then s.printed else s.printed ++ [s.wsk]
      reader := .test }
  | .done => none

/-- The next step of `wys1`. -/
def writer (s : State) : Option State :=
  match s.writer with
  | .wait => if 0 < s.sem1 then some { s with sem1 := s.sem1 - 1, writer := .gets } else none
  | .gets =>
    match fgets ROZM_BLOKU s.stdin with
    | some (input, rest) => some { s with wsk := cstr input, stdin := rest, writer := .strip }
    | none => some { s with writer := .strip }
  | .strip =>
    some { s with wsk := stripNewline s.wsk, turns := s.turns + 1, writer := .post }
  | .post => some { s with sem0 := s.sem0 + 1, writer := .test }
  | .test => some { s with writer := if Ends s.wsk then .done else .wait }
  | .done => none

def step (s : State) : Event → Option State
  | .reader => reader s
  | .writer => writer s

def start (stdin : List UInt8) : State where
  reader := .clear
  writer := .wait
  sem0 := 0
  sem1 := 0
  wsk := []
  stdin := stdin
  printed := []
  turns := 0

/-- What a step of `odb1` does. -/
inductive ReaderMove (s : State) : State → Prop
  | clear : s.reader = .clear → ReaderMove s { s with wsk := [], reader := .test }
  | test : s.reader = .test → ¬ Ends s.wsk → ReaderMove s { s with reader := .post }
  | leave : s.reader = .test → Ends s.wsk → ReaderMove s { s with reader := .done }
  | post : s.reader = .post → ReaderMove s { s with sem1 := s.sem1 + 1, reader := .wait }
  | wait : s.reader = .wait → 0 < s.sem0 →
      ReaderMove s { s with sem0 := s.sem0 - 1, reader := .print }
  | print : s.reader = .print → ¬ Ends s.wsk →
      ReaderMove s { s with printed := s.printed ++ [s.wsk], reader := .test }
  | skip : s.reader = .print → Ends s.wsk → ReaderMove s { s with reader := .test }

/-- What a step of `wys1` does. -/
inductive WriterMove (s : State) : State → Prop
  | wait : s.writer = .wait → 0 < s.sem1 →
      WriterMove s { s with sem1 := s.sem1 - 1, writer := .gets }
  | gets (input rest : List UInt8) : s.writer = .gets →
      fgets ROZM_BLOKU s.stdin = some (input, rest) →
      WriterMove s { s with wsk := cstr input, stdin := rest, writer := .strip }
  | eof : s.writer = .gets → fgets ROZM_BLOKU s.stdin = none →
      WriterMove s { s with writer := .strip }
  | strip : s.writer = .strip →
      WriterMove s { s with wsk := stripNewline s.wsk, turns := s.turns + 1, writer := .post }
  | post : s.writer = .post → WriterMove s { s with sem0 := s.sem0 + 1, writer := .test }
  | test : s.writer = .test → ¬ Ends s.wsk → WriterMove s { s with writer := .wait }
  | leave : s.writer = .test → Ends s.wsk → WriterMove s { s with writer := .done }

/-- How many turns `odb1` has taken for itself: it looks at the block, and may
    write it. -/
def Reader.turn : Reader → Nat
  | .wait => 0
  | _ => 1

/-- The same for `wys1`. It may look at the block later, too, in its test. -/
def Writer.turn : Writer → Nat
  | .gets => 1
  | .strip => 1
  | .post => 1
  | _ => 0

/-- The block and the input after so many turns of the loop of `wys1`. -/
def turnAt (stdin : List UInt8) (n : Nat) : List UInt8 × List UInt8 := turn^[n] ([], stdin)

/-- The block as it will be at the end of the turn. -/
def State.block (s : State) : List UInt8 :=
  if s.writer = .strip then stripNewline s.wsk else s.wsk

/-- The number of the turn that the block belongs to. -/
def State.number (s : State) : Nat := if s.writer = .strip then s.turns + 1 else s.turns

/-- What `odb1` knows when it is its turn: the line in the block has been printed,
    or ends both programs. -/
def Reads (s : State) : Reader → Prop
  | .clear => s.turns = 0 ∧ s.printed = []
  | .test => s.turns = s.printed.length ∧ ¬ Ends s.wsk ∨
      s.turns = s.printed.length + 1 ∧ Ends s.wsk
  | .post => s.turns = s.printed.length ∧ ¬ Ends s.wsk
  | .wait => True
  | .print => s.turns = s.printed.length + 1
  | .done => s.turns = s.printed.length + 1 ∧ Ends s.wsk

structure Sound (stdin : List UInt8) (s : State) : Prop where
  /-- One of the programs is at its turn, or a semaphore says that it may be. -/
  token : s.sem0 + s.sem1 + s.reader.turn + s.writer.turn = 1
  block_eq : (s.block, s.stdin) = turnAt stdin s.number
  printed_eq : s.printed = (List.range s.printed.length).map (entry stdin)
  shown : ∀ i < s.printed.length, ¬ Ends (entry stdin i)
  reads : Reads s s.reader
  /-- A line has been asked for, and the block holds the one before. -/
  asked : 0 < s.sem1 ∨ s.writer = .gets → s.turns = s.printed.length ∧ ¬ Ends s.wsk
  typing : s.writer = .strip → s.turns = s.printed.length
  /-- The block holds the next line. -/
  given : 0 < s.sem0 ∨ s.writer = .post → s.turns = s.printed.length + 1
  fresh : s.writer = .wait → ¬ Ends s.wsk
  closed : s.writer = .done → Ends s.wsk
  tested : s.writer = .test → 0 < s.turns

section Invariant

variable {stdin : List UInt8} {s t : State}

theorem reader_moves (hstep : reader s = some t) : ReaderMove s t := by
  unfold reader at hstep
  split at hstep
  · rename_i hreader
    cases hstep
    exact .clear hreader
  · rename_i hreader
    cases hstep
    split_ifs with hends
    · exact .leave hreader hends
    · exact .test hreader hends
  · rename_i hreader
    cases hstep
    exact .post hreader
  · rename_i hreader
    rw [Option.ite_none_right_eq_some, Option.some.injEq] at hstep
    rcases hstep with ⟨hpos, rfl⟩
    exact .wait hreader hpos
  · rename_i hreader
    cases hstep
    split_ifs with hends
    · exact .skip hreader hends
    · exact .print hreader hends
  · cases hstep

theorem writer_moves (hstep : writer s = some t) : WriterMove s t := by
  unfold writer at hstep
  split at hstep
  · rename_i hwriter
    rw [Option.ite_none_right_eq_some, Option.some.injEq] at hstep
    rcases hstep with ⟨hpos, rfl⟩
    exact .wait hwriter hpos
  · rename_i hwriter
    split at hstep
    · rename_i input rest hgets
      cases hstep
      exact .gets input rest hwriter hgets
    · rename_i hgets
      cases hstep
      exact .eof hwriter hgets
  · rename_i hwriter
    cases hstep
    exact .strip hwriter
  · rename_i hwriter
    cases hstep
    exact .post hwriter
  · rename_i hwriter
    cases hstep
    split_ifs with hends
    · exact .leave hwriter hends
    · exact .test hwriter hends
  · cases hstep

theorem turnAt_succ (n : Nat) : turnAt stdin (n + 1) = turn (turnAt stdin n) :=
  Function.iterate_succ_apply' turn n _

theorem not_ends_nil : ¬ Ends [] := by decide

theorem sound_start : Sound stdin (start stdin) where
  token := rfl
  block_eq := rfl
  printed_eq := rfl
  shown i hi := absurd hi (Nat.not_lt_zero i)
  reads := ⟨rfl, rfl⟩
  asked _ := ⟨rfl, not_ends_nil⟩
  typing _ := rfl
  given h := by simp [start] at h
  fresh _ := not_ends_nil
  closed h := by cases h
  tested h := by cases h

/-- While it is the turn of `odb1`, `wys1` is not in the section between its two
    semaphores, and none of them is raised. -/
theorem Sound.apart (h : Sound stdin s) (hreader : s.reader ≠ .wait) :
    s.sem0 = 0 ∧ s.sem1 = 0 ∧ s.writer ≠ .gets ∧ s.writer ≠ .strip ∧ s.writer ≠ .post := by
  have htoken := h.token
  have hone : s.reader.turn = 1 := by
    cases hr : s.reader with
    | wait => exact absurd hr hreader
    | _ => rfl
  have hnone : s.writer.turn = 0 := by omega
  refine ⟨by omega, by omega, ?_, ?_, ?_⟩ <;>
    · intro hw
      rw [hw] at hnone
      cases hnone

/-- In its section `wys1` is alone. -/
theorem Sound.alone (h : Sound stdin s) (hwriter : s.writer.turn = 1) :
    s.sem0 = 0 ∧ s.sem1 = 0 ∧ s.reader = .wait := by
  have htoken := h.token
  have hnone : s.reader.turn = 0 := by omega
  refine ⟨by omega, by omega, ?_⟩
  cases hr : s.reader with
  | wait => rfl
  | _ =>
      rw [hr] at hnone
      cases hnone

/-- A step of `odb1` that leaves it at its turn, and the block alone. -/
theorem sound_at_turn (h : Sound stdin s) (hreader : s.reader ≠ .wait) {place : Reader}
    {printed : List (List UInt8)} (hplace : place.turn = 1)
    (hprinted : printed = (List.range printed.length).map (entry stdin))
    (hshown : ∀ i < printed.length, ¬ Ends (entry stdin i))
    (hreads : Reads { s with printed := printed } place) :
    Sound stdin { s with reader := place, printed := printed } := by
  rcases h.apart hreader with ⟨hsem0, hsem1, hgets, hstrip, hpost⟩
  have htoken := h.token
  have hone : s.reader.turn = 1 := by
    cases hr : s.reader with
    | wait => exact absurd hr hreader
    | _ => rfl
  refine ⟨?_, h.block_eq, hprinted, hshown, hreads, fun hasked => ?_, fun hw => absurd hw hstrip,
    fun hgiven => ?_, h.fresh, h.closed, h.tested⟩
  · change s.sem0 + s.sem1 + place.turn + s.writer.turn = 1
    omega
  · rcases hasked with hpos | hw
    · exact absurd hsem1 hpos.ne'
    · exact absurd hw hgets
  · rcases hgiven with hpos | hw
    · exact absurd hsem0 hpos.ne'
    · exact absurd hw hpost

/-- At its turn `odb1` finds in the block what the last turn of `wys1` has put
    there. -/
theorem Sound.wsk_eq (h : Sound stdin s) (hstrip : s.writer ≠ .strip) :
    (s.wsk, s.stdin) = turnAt stdin s.turns := by
  have hblock := h.block_eq
  rwa [State.block, State.number, if_neg hstrip, if_neg hstrip] at hblock

theorem sound_reader (h : Sound stdin s) (hmove : ReaderMove s t) : Sound stdin t := by
  have hreads := h.reads
  cases hmove with
  | clear hreader =>
      rw [hreader] at hreads
      have hheld : s.reader ≠ .wait := by simp [hreader]
      have hwsk : s.wsk = [] := by
        have hblock := h.wsk_eq (h.apart hheld).2.2.2.1
        rw [hreads.1] at hblock
        exact congrArg Prod.fst hblock
      have hsound : Sound stdin { s with reader := .test, printed := s.printed } := by
        refine sound_at_turn h hheld rfl h.printed_eq h.shown (Or.inl ⟨?_, ?_⟩)
        · change s.turns = s.printed.length
          rw [hreads.1, hreads.2, List.length_nil]
        · change ¬ Ends s.wsk
          rw [hwsk]
          exact not_ends_nil
      rwa [hwsk] at hsound
  | test hreader hends =>
      rw [hreader] at hreads
      refine sound_at_turn h (by simp [hreader]) rfl h.printed_eq h.shown ?_
      exact hreads.elim id fun hlast => absurd hlast.2 hends
  | leave hreader hends =>
      rw [hreader] at hreads
      refine sound_at_turn h (by simp [hreader]) rfl h.printed_eq h.shown ?_
      exact hreads.elim (fun hlast => absurd hends hlast.2) id
  | post hreader =>
      rw [hreader] at hreads
      rcases h.apart (by simp [hreader]) with ⟨hsem0, hsem1, hgets, hstrip, hpost⟩
      have htoken := h.token
      rw [hreader] at htoken
      refine ⟨?_, h.block_eq, h.printed_eq, h.shown, trivial, fun _ => hreads,
        fun hw => absurd hw hstrip, fun hgiven => ?_, h.fresh, h.closed, h.tested⟩
      · change s.sem0 + (s.sem1 + 1) + 0 + s.writer.turn = 1
        change s.sem0 + s.sem1 + 1 + s.writer.turn = 1 at htoken
        omega
      · rcases hgiven with hpos | hw
        · exact absurd hsem0 hpos.ne'
        · exact absurd hw hpost
  | wait hreader hpos =>
      have htoken := h.token
      rw [hreader] at htoken
      change s.sem0 + s.sem1 + 0 + s.writer.turn = 1 at htoken
      have hnone : s.writer.turn = 0 := by omega
      refine ⟨?_, h.block_eq, h.printed_eq, h.shown, h.given (Or.inl hpos), fun hasked => ?_,
        fun hw => ?_, fun hgiven => ?_, h.fresh, h.closed, h.tested⟩
      · change s.sem0 - 1 + s.sem1 + 1 + s.writer.turn = 1
        omega
      · rcases hasked with hpos' | hw
        · change 0 < s.sem1 at hpos'
          omega
        · rw [show s.writer = .gets from hw] at hnone
          cases hnone
      · rw [show s.writer = .strip from hw] at hnone
        cases hnone
      · exact h.given (Or.inl hpos)
  | print hreader hends =>
      rw [hreader] at hreads
      have hheld : s.reader ≠ .wait := by simp [hreader]
      change s.turns = s.printed.length + 1 at hreads
      have hwsk : s.wsk = entry stdin s.printed.length := by
        have hblock := h.wsk_eq (h.apart hheld).2.2.2.1
        rw [hreads] at hblock
        exact congrArg Prod.fst hblock
      have hlength : (s.printed ++ [s.wsk]).length = s.printed.length + 1 := by
        rw [List.length_append, List.length_singleton]
      refine sound_at_turn h hheld rfl ?_ (fun i hi => ?_) (Or.inl ⟨?_, hends⟩)
      · rw [hlength, List.range_succ, List.map_append, ← h.printed_eq, List.map_singleton, hwsk]
      · rw [hlength] at hi
        by_cases hlast : i = s.printed.length
        · rw [hlast, ← hwsk]
          exact hends
        · exact h.shown i (by omega)
      · change s.turns = (s.printed ++ [s.wsk]).length
        rw [hlength, hreads]
  | skip hreader hends =>
      rw [hreader] at hreads
      exact sound_at_turn h (by simp [hreader]) rfl h.printed_eq h.shown (Or.inr ⟨hreads, hends⟩)

/-- `fgets` has filled the block, and the newline is still to be taken off, or it
    has left the block as it was. -/
theorem sound_gets (h : Sound stdin s) (hwriter : s.writer = .gets) {wsk rest : List UInt8}
    (hturn : (stripNewline wsk, rest) = turn (s.wsk, s.stdin)) :
    Sound stdin { s with wsk := wsk, stdin := rest, writer := .strip } := by
  have htoken := h.token
  rcases h.alone (by rw [hwriter]; rfl) with ⟨hsem0, hsem1, hreader⟩
  have hasked := h.asked (Or.inr hwriter)
  have hblock := h.wsk_eq (by simp [hwriter])
  refine ⟨?_, ?_, h.printed_eq, h.shown, ?_, fun hasked => ?_, fun _ => hasked.1,
    fun hgiven => ?_, fun hw => (by cases hw), fun hw => (by cases hw), fun hw => (by cases hw)⟩
  · rw [hwriter] at htoken
    exact htoken
  · change (stripNewline wsk, rest) = turnAt stdin (s.turns + 1)
    rw [turnAt_succ, ← hblock, hturn]
  · rw [hreader]
    trivial
  · rcases hasked with hpos | hw
    · exact absurd hsem1 hpos.ne'
    · cases hw
  · rcases hgiven with hpos | hw
    · exact absurd hsem0 hpos.ne'
    · cases hw

theorem sound_writer (h : Sound stdin s) (hmove : WriterMove s t) : Sound stdin t := by
  have htoken := h.token
  cases hmove with
  | wait hwriter hpos =>
      have hasked := h.asked (Or.inl hpos)
      have hblock := h.wsk_eq (by simp [hwriter])
      rw [hwriter] at htoken
      change s.sem0 + s.sem1 + s.reader.turn + 0 = 1 at htoken
      refine ⟨?_, hblock, h.printed_eq, h.shown, h.reads, fun _ => hasked, fun hw => (by cases hw),
        fun hgiven => ?_, fun hw => (by cases hw), fun hw => (by cases hw),
        fun hw => (by cases hw)⟩
      · change s.sem0 + (s.sem1 - 1) + s.reader.turn + 1 = 1
        omega
      · rcases hgiven with hpos' | hw
        · change 0 < s.sem0 at hpos'
          omega
        · cases hw
  | gets input rest hwriter hgets =>
      refine sound_gets h hwriter ?_
      rw [turn, hgets]
  | eof hwriter hgets =>
      refine sound_gets h hwriter ?_
      rw [turn, hgets]
  | strip hwriter =>
      rcases h.alone (by rw [hwriter]; rfl) with ⟨hsem0, hsem1, hreader⟩
      have htyping := h.typing hwriter
      have hblock := h.block_eq
      rw [State.block, State.number, if_pos hwriter, if_pos hwriter] at hblock
      refine ⟨?_, hblock, h.printed_eq, h.shown, ?_, fun hasked => ?_, fun hw => (by cases hw),
        fun _ => congrArg (· + 1) htyping, fun hw => (by cases hw), fun hw => (by cases hw),
        fun hw => (by cases hw)⟩
      · rw [hwriter] at htoken
        exact htoken
      · rw [hreader]
        trivial
      · rcases hasked with hpos | hw
        · exact absurd hsem1 hpos.ne'
        · cases hw
  | post hwriter =>
      rcases h.alone (by rw [hwriter]; rfl) with ⟨hsem0, hsem1, hreader⟩
      have hblock := h.wsk_eq (by simp [hwriter])
      have hgiven := h.given (Or.inr hwriter)
      refine ⟨?_, hblock, h.printed_eq, h.shown, ?_, fun hasked => ?_, fun hw => (by cases hw),
        fun _ => hgiven, fun hw => (by cases hw), fun hw => (by cases hw), fun _ => ?_⟩
      · change s.sem0 + 1 + s.sem1 + s.reader.turn + 0 = 1
        rw [hsem0, hsem1, hreader]
        rfl
      · rw [hreader]
        trivial
      · rcases hasked with hpos | hw
        · exact absurd hsem1 hpos.ne'
        · cases hw
      · change 0 < s.turns
        omega
  | test hwriter hends =>
      have hblock := h.wsk_eq (by simp [hwriter])
      rw [hwriter] at htoken
      refine ⟨htoken, hblock, h.printed_eq, h.shown, h.reads, fun hasked => ?_,
        fun hw => (by cases hw), fun hgiven => ?_, fun _ => hends, fun hw => (by cases hw),
        fun hw => (by cases hw)⟩
      · exact h.asked (Or.inl (hasked.resolve_right fun hw => by cases hw))
      · exact h.given (Or.inl (hgiven.resolve_right fun hw => by cases hw))
  | leave hwriter hends =>
      have hblock := h.wsk_eq (by simp [hwriter])
      rw [hwriter] at htoken
      refine ⟨htoken, hblock, h.printed_eq, h.shown, h.reads, fun hasked => ?_,
        fun hw => (by cases hw), fun hgiven => ?_, fun hw => (by cases hw), fun _ => hends,
        fun hw => (by cases hw)⟩
      · exact h.asked (Or.inl (hasked.resolve_right fun hw => by cases hw))
      · exact h.given (Or.inl (hgiven.resolve_right fun hw => by cases hw))

theorem sound_step (h : Sound stdin s) {e : Event} (hstep : step s e = some t) :
    Sound stdin t := by
  cases e with
  | reader => exact sound_reader h (reader_moves hstep)
  | writer => exact sound_writer h (writer_moves hstep)

theorem sound_of_reachable (h : Reachable step (start stdin) s) : Sound stdin s :=
  h.invariant sound_start fun _ _ _ hv _ hstep => sound_step hv hstep

end Invariant

/-- Where a program looks at the block. -/
def Reader.looks : Reader → Bool
  | .clear => true
  | .test => true
  | .print => true
  | _ => false

def Writer.looks : Writer → Bool
  | .gets => true
  | .strip => true
  | .test => true
  | _ => false

/-- Where it writes the block. -/
def Writer.writes : Writer → Bool
  | .gets => true
  | .strip => true
  | _ => false

/-- The steps `odb1` has left when `K` lines are handed over. -/
def State.readerLeft (K : Nat) (s : State) : Nat :=
  match s.reader with
  | .clear => 4 * K + 2
  | .test => if Ends s.wsk then 1 else 4 * (K - s.printed.length) + 1
  | .post => 4 * (K - s.printed.length)
  | .wait => 4 * (K - s.printed.length) - 1
  | .print => 4 * (K - s.printed.length) - 2
  | .done => 0

/-- Those `wys1` has left. -/
def State.writerLeft (K : Nat) (s : State) : Nat :=
  match s.writer with
  | .wait => 5 * (K - s.turns)
  | .gets => 5 * (K - s.turns) - 1
  | .strip => 5 * (K - s.turns) - 2
  | .post => 5 * (K - s.turns) + 2
  | .test => 5 * (K - s.turns) + 1
  | .done => 0

def State.left (K : Nat) (s : State) : Nat := s.readerLeft K + s.writerLeft K

section Progress

variable {stdin : List UInt8} {s t : State}

theorem writes_alone (h : Sound stdin s) :
    (s.writer.writes = true → s.reader.looks = false) ∧
      (s.reader = .clear → s.writer.looks = false) := by
  constructor
  · intro hwrites
    have hone : s.writer.turn = 1 := by
      cases hw : s.writer <;> rw [hw] at hwrites <;> first | rfl | cases hwrites
    rw [(h.alone hone).2.2]
    rfl
  · intro hclear
    rcases h.apart (by simp [hclear]) with ⟨_, _, hgets, hstrip, _⟩
    have hturns : s.turns = 0 := by
      have hreads := h.reads
      rw [hclear] at hreads
      exact hreads.1
    cases hw : s.writer with
    | gets => exact absurd hw hgets
    | strip => exact absurd hw hstrip
    | test => exact absurd hturns (h.tested hw).ne'
    | _ => rfl

/-- If neither can go on, both have ended. -/
theorem stuck_done (h : Sound stdin s) (hstuck : ∀ e, step s e = none) :
    s.reader = .done ∧ s.writer = .done := by
  have htoken := h.token
  have hreads := h.reads
  have hreader : s.reader = .done ∨ s.reader = .wait ∧ s.sem0 = 0 := by
    have hnone : reader s = none := hstuck .reader
    cases hr : s.reader with
    | wait =>
        simp only [reader, hr] at hnone
        split_ifs at hnone with hpos
        exact Or.inr ⟨rfl, by omega⟩
    | done => exact Or.inl rfl
    | _ => simp [reader, hr] at hnone
  have hwriter : s.writer = .done ∨ s.writer = .wait ∧ s.sem1 = 0 := by
    have hnone : writer s = none := hstuck .writer
    cases hw : s.writer with
    | wait =>
        simp only [writer, hw] at hnone
        split_ifs at hnone with hpos
        exact Or.inr ⟨rfl, by omega⟩
    | gets =>
        simp only [writer, hw] at hnone
        split at hnone <;> cases hnone
    | done => exact Or.inl rfl
    | _ => simp [writer, hw] at hnone
  rcases hreader with hr | ⟨hr, hsem0⟩
  · rcases hwriter with hw | ⟨hw, _⟩
    · exact ⟨hr, hw⟩
    · -- The line that ends `odb1` has ended `wys1` as well.
      rw [hr] at hreads
      exact absurd hreads.2 (h.fresh hw)
  · rcases hwriter with hw | ⟨hw, hsem1⟩
    · -- Only `id_sem1` can be raised, and no line is asked for after the last.
      rw [hr, hw] at htoken
      change s.sem0 + s.sem1 + 0 + 0 = 1 at htoken
      exact absurd (h.closed hw) (h.asked (Or.inl (by omega))).2
    · rw [hr, hw] at htoken
      change s.sem0 + s.sem1 + 0 + 0 = 1 at htoken
      omega

/-- Nothing is printed after the line that ends the programs. -/
theorem printed_le (h : Sound stdin s) {k : Nat} (hends : Ends (entry stdin k)) :
    s.printed.length ≤ k := by
  by_contra hmore
  exact h.shown k (by omega) hends

theorem left_reader (h : Sound stdin s) {k : Nat} (hends : Ends (entry stdin k))
    (hmove : ReaderMove s t) : t.left (k + 1) < s.left (k + 1) := by
  have hle := printed_le h hends
  have hreads := h.reads
  -- The other program's steps stay the same.
  have hless : ∀ t : State, t.writer = s.writer → t.turns = s.turns →
      t.readerLeft (k + 1) < s.readerLeft (k + 1) → t.left (k + 1) < s.left (k + 1) := by
    intro t hwriter hturns hreader
    unfold State.left State.writerLeft
    rw [hwriter, hturns]
    omega
  cases hmove with
  | clear hreader =>
      refine hless _ rfl rfl ?_
      rw [hreader] at hreads
      simp only [State.readerLeft, hreader, hreads.2, List.length_nil, if_neg not_ends_nil]
      omega
  | test hreader hopen =>
      refine hless _ rfl rfl ?_
      simp only [State.readerLeft, hreader, if_neg hopen]
      omega
  | leave hreader hlast =>
      refine hless _ rfl rfl ?_
      simp only [State.readerLeft, hreader, if_pos hlast]
      omega
  | post hreader =>
      refine hless _ rfl rfl ?_
      simp only [State.readerLeft, hreader]
      omega
  | wait hreader _ =>
      refine hless _ rfl rfl ?_
      simp only [State.readerLeft, hreader]
      omega
  | print hreader hopen =>
      refine hless _ rfl rfl ?_
      simp only [State.readerLeft, hreader, if_neg hopen, List.length_append,
        List.length_singleton]
      omega
  | skip hreader hlast =>
      refine hless _ rfl rfl ?_
      simp only [State.readerLeft, hreader, if_pos hlast]
      omega

theorem left_writer (h : Sound stdin s) {k : Nat} (hends : Ends (entry stdin k))
    (hmove : WriterMove s t) : t.left (k + 1) < s.left (k + 1) := by
  have hle := printed_le h hends
  have hless : ∀ t : State, t.readerLeft (k + 1) = s.readerLeft (k + 1) →
      t.writerLeft (k + 1) < s.writerLeft (k + 1) → t.left (k + 1) < s.left (k + 1) := by
    intro t hreader hwriter
    unfold State.left
    omega
  -- Where the block changes `odb1` waits, and does not count what is in it.
  have hwaits : ∀ t : State, s.writer.turn = 1 → t.reader = s.reader → t.printed = s.printed →
      t.readerLeft (k + 1) = s.readerLeft (k + 1) := by
    intro t hone hreader hprinted
    have hwait := (h.alone hone).2.2
    simp only [State.readerLeft, hreader, hwait, hprinted]
  cases hmove with
  | wait hwriter hpos =>
      have hturns := (h.asked (Or.inl hpos)).1
      refine hless _ rfl ?_
      simp only [State.writerLeft, hwriter]
      omega
  | gets input rest hwriter _ =>
      have hturns := (h.asked (Or.inr hwriter)).1
      refine hless _ (hwaits _ (by rw [hwriter]; rfl) rfl rfl) ?_
      simp only [State.writerLeft, hwriter]
      omega
  | eof hwriter _ =>
      have hturns := (h.asked (Or.inr hwriter)).1
      refine hless _ rfl ?_
      simp only [State.writerLeft, hwriter]
      omega
  | strip hwriter =>
      have hturns := h.typing hwriter
      refine hless _ (hwaits _ (by rw [hwriter]; rfl) rfl rfl) ?_
      simp only [State.writerLeft, hwriter]
      omega
  | post hwriter =>
      refine hless _ rfl ?_
      simp only [State.writerLeft, hwriter]
      omega
  | test hwriter _ =>
      refine hless _ rfl ?_
      simp only [State.writerLeft, hwriter]
      omega
  | leave hwriter _ =>
      refine hless _ rfl ?_
      simp only [State.writerLeft, hwriter]
      omega

theorem step_left (h : Sound stdin s) {k : Nat} (hends : Ends (entry stdin k)) {e : Event}
    (hstep : step s e = some t) : t.left (k + 1) < s.left (k + 1) := by
  cases e with
  | reader => exact left_reader h hends (reader_moves hstep)
  | writer => exact left_writer h hends (writer_moves hstep)

/-- No run is longer than up to the line that ends the programs. -/
theorem run_le {es : List Event} (hrun : run step (start stdin) es = some s) {k : Nat}
    (hends : Ends (entry stdin k)) : es.length ≤ 9 * k + 11 := by
  have hbound : s.left (k + 1) + es.length ≤ (start stdin).left (k + 1) :=
    run_length_le (State.left (k + 1))
      (fun _ _ _ hv hstep => ⟨sound_step hv hstep, step_left hv hends hstep⟩) sound_start hrun
  have hstart : (start stdin).left (k + 1) = 4 * (k + 1) + 2 + 5 * (k + 1 - 0) := rfl
  omega

/-- What the block holds when `wys1` has ended. -/
theorem ends_of_done (h : Sound stdin s) (hdone : s.writer = .done) :
    ∃ k, Ends (entry stdin k) := by
  have hblock := h.wsk_eq (by simp [hdone])
  have hends := h.closed hdone
  have hwsk : s.wsk = (turnAt stdin s.turns).1 := congrArg Prod.fst hblock
  rw [hwsk] at hends
  cases hturns : s.turns with
  | zero =>
      rw [hturns] at hends
      exact absurd hends not_ends_nil
  | succ n =>
      rw [hturns] at hends
      exact ⟨n, hends⟩

/-- When `odb1` has ended, the next line was the one that ends it. -/
theorem ends_of_reader_done (h : Sound stdin s) (hdone : s.reader = .done) :
    Ends (entry stdin s.printed.length) := by
  have hreads := h.reads
  rw [hdone] at hreads
  have hblock := h.wsk_eq (h.apart (by simp [hdone])).2.2.2.1
  rw [hreads.1] at hblock
  have hwsk : s.wsk = entry stdin s.printed.length := congrArg Prod.fst hblock
  rw [← hwsk]
  exact hreads.2

end Progress

/-- A line that `fgets` can read whole, as `wys1` hands it over. -/
structure Whole (line : List UInt8) : Prop where
  short : line.length + 1 < ROZM_BLOKU
  no_newline : (10 : UInt8) ∉ line
  no_zero : ∀ b ∈ line, b ≠ 0

section Lines

variable {lines : List (List UInt8)}

theorem stripNewline_of_no_newline {line : List UInt8} (h : (10 : UInt8) ∉ line) :
    stripNewline line = line := by
  refine if_neg fun hlast => h ?_
  exact List.mem_of_getLast? hlast

/-- A turn at a whole line. -/
theorem turn_line {line : List UInt8} (h : Whole line) (wsk : List UInt8) :
    turn (wsk, unlines 10 (line :: lines)) = (line, unlines 10 lines) := by
  have htext : unlines 10 (line :: lines) = (line ++ [10]) ++ unlines 10 lines := rfl
  have htake : (unlines 10 (line :: lines)).takeWhile (· ≠ 10) = line := by
    rw [htext, List.append_assoc]
    refine (List.takeWhile_append_of_pos fun b hb => ?_).trans ?_
    · exact decide_eq_true fun hten => h.no_newline (hten ▸ hb)
    · simp
  have hlength : (line ++ [(10 : UInt8)]).length = line.length + 1 := by
    rw [List.length_append, List.length_singleton]
  have hstored : min (ROZM_BLOKU - 1) (line.length + 1) = (line ++ [(10 : UInt8)]).length := by
    have hshort := h.short
    rw [hlength]
    omega
  have hne : unlines 10 (line :: lines) ≠ [] := by
    rw [htext]
    simp
  have hgets : fgets ROZM_BLOKU (unlines 10 (line :: lines)) =
      some (line ++ [10], unlines 10 lines) := by
    simp only [fgets, if_neg hne, htake]
    rw [hstored, htext, List.take_left, List.drop_left]
  have hcstr : cstr (line ++ [10]) = line ++ [10] := by
    refine cstr_of_no_zero fun b hb => ?_
    rcases List.mem_append.mp hb with hb | hb
    · exact h.no_zero b hb
    · rw [List.mem_singleton.mp hb]
      decide
  have hstrip : stripNewline (line ++ [10]) = line := by
    simp [stripNewline]
  rw [turn, hgets]
  change (stripNewline (cstr (line ++ [10])), unlines 10 lines) = _
  rw [hcstr, hstrip]

/-- After some turns the block holds the last of so many lines, or of all. -/
theorem turnAt_unlines (h : ∀ line ∈ lines, Whole line) (n : Nat) :
    turnAt (unlines 10 lines) n = ((lines.take n).getLastD [], unlines 10 (lines.drop n)) := by
  induction n with
  | zero => rfl
  | succ n ih =>
      rw [turnAt_succ, ih]
      cases hrest : lines.drop n with
      | nil =>
          -- The input is at its end.
          have hle : lines.length ≤ n := List.drop_eq_nil_iff.mp hrest
          rw [List.take_of_length_le hle, List.take_of_length_le (by omega),
            List.drop_of_length_le (by omega)]
          have hlast : (10 : UInt8) ∉ lines.getLastD [] := by
            cases hlines : lines with
            | nil => exact List.not_mem_nil
            | cons line rest =>
                have hmem : (line :: rest).getLastD [] ∈ lines := by
                  rw [hlines, List.getLastD_cons]
                  exact List.getLastD_mem_cons
                exact (h _ hmem).no_newline
          change (stripNewline (lines.getLastD []), ([] : List UInt8)) = _
          rw [stripNewline_of_no_newline hlast]
          rfl
      | cons line rest =>
          have hget : lines[n]? = some line := by
            rw [← List.head?_drop, hrest]
            rfl
          have hmem : line ∈ lines := List.mem_of_getElem? hget
          have hnext : lines.drop (n + 1) = rest := by
            rw [← List.tail_drop, hrest]
            rfl
          rw [turn_line (h line hmem), hnext, List.take_add_one, hget]
          simp

/-- The lines are handed over one after the other. -/
theorem entry_line (h : ∀ line ∈ lines, Whole line) {i : Nat} {line : List UInt8}
    (hget : lines[i]? = some line) : entry (unlines 10 lines) i = line := by
  have hturn : entry (unlines 10 lines) i = (turnAt (unlines 10 lines) (i + 1)).1 := rfl
  rw [hturn, turnAt_unlines h, List.take_add_one, hget]
  simp

/-- At the end of the input the last one is handed over again. -/
theorem entry_again (h : ∀ line ∈ lines, Whole line) {i : Nat} (hle : lines.length ≤ i + 1) :
    entry (unlines 10 lines) i = lines.getLastD [] := by
  have hturn : entry (unlines 10 lines) i = (turnAt (unlines 10 lines) (i + 1)).1 := rfl
  rw [hturn, turnAt_unlines h, List.take_of_length_le hle]

/-- The lines, and then the last one as often as one likes. -/
theorem entries_eq (h : ∀ line ∈ lines, Whole line) (m : Nat) :
    (List.range m).map (entry (unlines 10 lines)) =
      (lines ++ List.replicate m (lines.getLastD [])).take m := by
  refine List.ext_getElem? fun i => ?_
  by_cases hi : i < m
  · rw [List.getElem?_map, List.getElem?_range hi, List.getElem?_take_of_lt hi]
    by_cases hline : i < lines.length
    · rw [List.getElem?_append_left hline, List.getElem?_eq_getElem hline]
      exact congrArg some (entry_line h (List.getElem?_eq_getElem hline))
    · rw [List.getElem?_append_right (not_lt.mp hline), List.getElem?_replicate,
        if_pos (by omega)]
      exact congrArg some (entry_again h (by omega))
  · rw [List.getElem?_eq_none (by simp; omega), List.getElem?_eq_none (by simp; omega)]

/-- The first line that ends the programs is one of the input. -/
theorem entry_ends (h : ∀ line ∈ lines, Whole line) {m : Nat}
    (hshown : ∀ i < m, ¬ Ends (entry (unlines 10 lines) i))
    (hends : Ends (entry (unlines 10 lines) m)) : m < lines.length := by
  by_contra hmore
  rw [entry_again h (by omega)] at hends
  by_cases hm : m = 0
  · have hnil : lines = [] := List.length_eq_zero_iff.mp (by omega)
    rw [hnil] at hends
    exact not_ends_nil hends
  · -- It would have been there before.
    have hlast := hshown (m - 1) (by omega)
    rw [entry_again h (by omega)] at hlast
    exact hlast hends

end Lines

/-- In every run `odb1` has printed the first lines that `wys1` has put into the
    block, each once and in order, and none that ends the programs; it stops at
    the first one that does. Neither program writes the block while the other
    is where it looks at it. -/
theorem printed_in_order (stdin : List UInt8) (s : State) (h : Reachable step (start stdin) s) :
    s.printed = (List.range s.printed.length).map (entry stdin) ∧
    (∀ i < s.printed.length, ¬ Ends (entry stdin i)) ∧
    (s.reader = .done → Ends (entry stdin s.printed.length)) ∧
    (s.writer.writes = true → s.reader.looks = false) ∧
    (s.reader = .clear → s.writer.looks = false) := by
  have hs := sound_of_reachable h
  exact ⟨hs.printed_eq, hs.shown, ends_of_reader_done hs, writes_alone hs⟩

/-- A line is asked for, typed and printed, and then the line that ends both
    programs. -/
def twoLines : List Event :=
  List.replicate 3 .reader ++ List.replicate 5 .writer ++ List.replicate 4 .reader ++
    List.replicate 5 .writer ++ List.replicate 3 .reader

theorem run_twoLines : ∃ s, run step (start (unlines 10 [[97], [33]])) twoLines = some s ∧
    s.reader = .done ∧ s.printed.length = 1 := by
  have hend : (run step (start (unlines 10 [[97], [33]])) twoLines).map
      (fun s => (s.reader, s.printed.length)) = some (.done, 1) := by decide
  rcases Option.map_eq_some_iff.mp hend with ⟨s, hrun, hpair⟩
  rcases Prod.mk.inj hpair with ⟨hdone, hlength⟩
  exact ⟨s, hrun, hdone, hlength⟩

theorem printed_in_order_run : ∃ s, Reachable step (start (unlines 10 [[97], [33]])) s ∧
    s.printed = [entry (unlines 10 [[97], [33]]) 0] ∧
    Ends (entry (unlines 10 [[97], [33]]) 1) := by
  rcases run_twoLines with ⟨s, hrun, hdone, hlength⟩
  have hreach := reachable_of_run hrun
  rcases printed_in_order _ s hreach with ⟨hprinted, _, hends, _⟩
  rw [hlength] at hprinted hends
  exact ⟨s, hreach, hprinted, hends hdone⟩

/-- The programs end together: as long as one of them has not ended, one of them
    can go on. They do end if a line says so, within so many steps, and
    otherwise none of them does. -/
theorem ends_together (stdin : List UInt8) (s : State) (es : List Event)
    (hrun : run step (start stdin) es = some s) :
    ((∃ e, (step s e).isSome = true) ∨ s.reader = .done ∧ s.writer = .done) ∧
    (∀ k, Ends (entry stdin k) → es.length ≤ 9 * k + 11) ∧
    ((∀ k, ¬ Ends (entry stdin k)) → s.reader ≠ .done ∧ s.writer ≠ .done) := by
  have hs := sound_of_reachable (reachable_of_run hrun)
  refine ⟨?_, fun k hends => run_le hrun hends, fun hnever => ⟨fun hdone => ?_, fun hdone => ?_⟩⟩
  · by_cases hstuck : ∀ e, step s e = none
    · exact Or.inr (stuck_done hs hstuck)
    · rcases not_forall.mp hstuck with ⟨e, he⟩
      exact Or.inl ⟨e, Option.isSome_iff_ne_none.mpr he⟩
  · exact hnever _ (ends_of_reader_done hs hdone)
  · rcases ends_of_done hs hdone with ⟨k, hk⟩
    exact hnever k hk

/-- The second of the two lines ends both programs, after as many steps as there
    can be. -/
theorem ends_together_run : ∃ s, run step (start (unlines 10 [[97], [33]])) twoLines = some s ∧
    (s.reader = .done ∧ s.writer = .done) ∧ twoLines.length ≤ 20 := by
  have hend : (run step (start (unlines 10 [[97], [33]])) twoLines).map
      (fun s => ((step s .reader).isSome, (step s .writer).isSome)) = some (false, false) := by
    decide
  have hends : Ends (entry (unlines 10 [[97], [33]]) 1) := by decide
  rcases Option.map_eq_some_iff.mp hend with ⟨s, hrun, hpair⟩
  rcases Prod.mk.inj hpair with ⟨hreader, hwriter⟩
  rcases ends_together _ s twoLines hrun with ⟨hgoes, hsteps, _⟩
  refine ⟨s, hrun, hgoes.resolve_left ?_, hsteps 1 hends⟩
  rintro ⟨e, he⟩
  cases e with
  | reader => exact Bool.false_ne_true (hreader.symm.trans he)
  | writer => exact Bool.false_ne_true (hwriter.symm.trans he)

/-- On a text of lines that fit into the block, the lines are printed, and after
    the last one this one again and again, unless a line ends the programs: then
    those before it are. -/
theorem lines_shown (lines : List (List UInt8)) (hwhole : ∀ line ∈ lines, Whole line) (s : State)
    (h : Reachable step (start (unlines 10 lines)) s) :
    s.printed = (lines ++ List.replicate s.printed.length (lines.getLastD [])).take
      s.printed.length ∧
    (s.reader = .done → ∃ last after, lines = s.printed ++ last :: after ∧ Ends last ∧
      ∀ line ∈ s.printed, ¬ Ends line) := by
  have hs := sound_of_reachable h
  have hprinted := hs.printed_eq.trans (entries_eq hwhole s.printed.length)
  refine ⟨hprinted, fun hdone => ?_⟩
  have hends := ends_of_reader_done hs hdone
  have hlt := entry_ends hwhole hs.shown hends
  have htake : s.printed = lines.take s.printed.length := by
    rwa [List.take_append_of_le_length hlt.le] at hprinted
  refine ⟨lines[s.printed.length], lines.drop (s.printed.length + 1), ?_, ?_, fun line hline => ?_⟩
  · calc lines = lines.take s.printed.length ++ lines.drop s.printed.length :=
          (List.take_append_drop _ _).symm
      _ = s.printed ++ lines.drop s.printed.length := congrArg (· ++ _) htake.symm
      _ = s.printed ++ lines[s.printed.length] :: lines.drop (s.printed.length + 1) :=
          congrArg _ (List.getElem_cons_drop hlt).symm
  · rwa [entry_line hwhole (List.getElem?_eq_getElem hlt)] at hends
  · rw [hs.printed_eq, List.mem_map] at hline
    rcases hline with ⟨i, hi, rfl⟩
    exact hs.shown i (List.mem_range.mp hi)

/-- Of the two lines the first is printed. -/
theorem lines_shown_run : ∃ s, Reachable step (start (unlines 10 [[97], [33]])) s ∧
    s.printed = [[97]] := by
  rcases run_twoLines with ⟨s, hrun, _, hlength⟩
  have hwhole : ∀ line ∈ [[97], [(33 : UInt8)]], Whole line := by
    intro line hline
    simp only [List.mem_cons, List.not_mem_nil, or_false] at hline
    rcases hline with rfl | rfl
    · exact ⟨by decide, by decide, fun b hb => by rw [List.mem_singleton.mp hb]; decide⟩
    · exact ⟨by decide, by decide, fun b hb => by rw [List.mem_singleton.mp hb]; decide⟩
  have hreach := reachable_of_run hrun
  have hprinted := (lines_shown _ hwhole s hreach).1
  rw [hlength] at hprinted
  exact ⟨s, hreach, hprinted⟩

end Rendezvous

end Kolos

end OsLabs
