import OsLabs.Core.Run
import Mathlib.Tactic.SplitIfs

/-!
# A Lock Made of Two Calls

`kolos/test_2/second/5/task_1` as a transition system. A parent and a child
guard their writes to one file with a System V semaphore they use by hand: each
polls its value until it is not 0, sets it to 0, writes, and sets it to 1.

A step makes one call of `semctl`, or the test at the head of a loop. Whether
the call fails is part of the event; `GETVAL` then returns -1. The loop counters
are any numbers, and a negative one never reaches 0.

Reading the value and setting it to 0 are two calls, so a process may pass its
test while the other one has passed and not set the semaphore to 0 yet. And -1
is not 0: the first read of a round lets a process pass when it fails, since the
test for -1 stands only inside the `while`. Nothing else goes wrong: what the
lock lacks is said by one condition on the reads that let a process pass.

## Main definitions

* `Place`, `Process`, `State`, `Event`, `step`, `start`: The transition system.
* `Place.committed`: From the test that is passed to the set to 1.
* `passes`: The step is a read that lets its process pass.
* `Apart`: A process passes only while the other one is not committed.
* `Exclusive`: At most one process is inside.

## Theorems

* `process_other`: A step leaves the other process where it is.
* `committed_step`: Only a read that passes makes a process committed.
* `inside_of_committed`: A committed process can get inside at once.
* `exclusive_while_apart`: The condition is enough, and each breach of it can
  bring both inside.
* `exclusive_while_apart_run`: One process polls until the other has left.
* `both_pass_inside`: Both pass before either sets the semaphore to 0.
-/

namespace OsLabs

namespace Kolos

namespace Polling

inductive Who
  | parent
  | child
  deriving DecidableEq

def Who.other : Who → Who
  | .parent => .child
  | .child => .parent

/-- Where a process stands. -/
inductive Place
  /-- At the head of its loop. -/
  | loop
  /-- The first `GETVAL` of the round is next. -/
  | reading
  /-- `res` was 0; the `GETVAL` of the `while` is next. -/
  | polling
  /-- `SETVAL` to 0 is next. -/
  | passed
  /-- Between the two calls of `SETVAL`; that to 1 is next. -/
  | inside
  /-- The parent waits for the child. -/
  | waiting
  /-- `IPC_RMID` is next. -/
  | removing
  | ended
  deriving DecidableEq

structure Process where
  place : Place
  LoopCounter : Int
  deriving DecidableEq

structure State where
  /-- The value of the semaphore. -/
  val : Nat
  process : Who → Process

/-- A step of a process. `fails` says whether the call of `semctl`, if the step
    makes one, returns -1. -/
structure Event where
  who : Who
  fails : Bool

/-- The process goes on at another place. -/
def State.move (s : State) (who : Who) (place : Place) : State :=
  { s with process := Function.update s.process who ⟨place, (s.process who).LoopCounter⟩ }

/-- What `semctl(semid, semnum, GETVAL)` returns. -/
def getval (s : State) (fails : Bool) : Int :=
  if fails then -1 else s.val

/-- `semctl(semid, semnum, SETVAL)`: the value afterwards. -/
def setval (s : State) (fails : Bool) (val : Nat) : Nat :=
  if fails then s.val else val

/-- The loop of either process, which then goes on at `rest`. -/
def rounds (who : Who) (rest : Place) (s : State) (fails : Bool) : Option State :=
  match (s.process who).place with
  | .loop =>
    let LoopCounter := (s.process who).LoopCounter
    -- The counter is tested first and lowered in any case.
    let place := if LoopCounter = 0 then rest else .reading
    some { s with process := Function.update s.process who ⟨place, LoopCounter - 1⟩ }
  -- The first result of the round is not compared with -1.
  | .reading => some (s.move who (if getval s fails = 0 then .polling else .passed))
  | .polling =>
    if getval s fails = -1 then some (s.move who .ended)
    else some (s.move who (if getval s fails = 0 then .polling else .passed))
  -- Whether `SETVAL` has succeeded is not looked at.
  | .passed => some { s.move who .inside with val := setval s fails 0 }
  | .inside => some { s.move who .loop with val := setval s fails 1 }
  | _ => none

/-- The child. -/
def child (s : State) (fails : Bool) : Option State := rounds .child .ended s fails

/-- The parent, which also waits for the child and removes the semaphore. After
    that nobody is left to use it. -/
def parent (s : State) (fails : Bool) : Option State :=
  match (s.process .parent).place with
  | .waiting =>
    if (s.process .child).place = .ended then some (s.move .parent .removing) else none
  | .removing => some (s.move .parent .ended)
  | _ => rounds .parent .waiting s fails

def step (s : State) (e : Event) : Option State :=
  match e.who with
  | .parent => parent s e.fails
  | .child => child s e.fails

/-- The state after `fork`, the semaphore having any value. -/
def start (val : Nat) (parentLoopCounter childLoopCounter : Int) : State where
  val := val
  process
    | .parent => ⟨.loop, parentLoopCounter⟩
    | .child => ⟨.loop, childLoopCounter⟩

/-- The process has passed its test and not called `SETVAL` to 1 since. -/
def Place.committed (place : Place) : Prop := place = .passed ∨ place = .inside

/-- The step is a `GETVAL` after which its process goes on to set the semaphore
    to 0: it is not 0, and not -1 either unless it is the first of the round. -/
def passes (s : State) (e : Event) : Prop :=
  ((s.process e.who).place = .reading ∨
    (s.process e.who).place = .polling ∧ getval s e.fails ≠ -1) ∧ getval s e.fails ≠ 0

/-- A process passes its test only while the other one is not committed. -/
def Apart (s : State) (e : Event) : Prop :=
  passes s e → ¬ (s.process e.who.other).place.committed

/-- At most one process is between its `SETVAL` to 0 and its `SETVAL` to 1. -/
def Exclusive (s : State) : Prop :=
  ¬ ((s.process .parent).place = .inside ∧ (s.process .child).place = .inside)

section Steps

variable {s t : State} {who : Who} {rest : Place} {fails : Bool} {e : Event}

theorem other_ne (who : Who) : who.other ≠ who := by
  cases who <;> decide

@[simp] theorem move_self (s : State) (who : Who) (place : Place) :
    ((s.move who place).process who).place = place := by
  simp only [State.move, Function.update_self]

@[simp] theorem move_other (s : State) (who : Who) (place : Place) :
    (s.move who place).process who.other = s.process who.other :=
  Function.update_of_ne (other_ne who) _ _

/-- A step leaves the other process where it is. -/
theorem rounds_other (hstep : rounds who rest s fails = some t) :
    t.process who.other = s.process who.other := by
  unfold rounds at hstep
  cases hplace : (s.process who).place <;> simp only [hplace] at hstep
  case loop =>
    rw [← Option.some.inj hstep]
    exact Function.update_of_ne (other_ne who) _ _
  case reading =>
    rw [← Option.some.inj hstep, move_other]
  case polling =>
    split_ifs at hstep
    · rw [← Option.some.inj hstep, move_other]
    · rw [← Option.some.inj hstep, move_other]
    · rw [← Option.some.inj hstep, move_other]
  case passed =>
    rw [← Option.some.inj hstep]
    exact move_other s who .inside
  case inside =>
    rw [← Option.some.inj hstep]
    exact move_other s who .loop
  all_goals cases hstep

/-- Within its loop a process becomes committed only by a read that passes. -/
theorem rounds_committed (hrest : ¬ rest.committed) (hstep : rounds who rest s fails = some t)
    (hafter : (t.process who).place.committed) :
    (s.process who).place.committed ∨ passes s ⟨who, fails⟩ := by
  unfold rounds at hstep
  cases hplace : (s.process who).place <;> simp only [hplace] at hstep
  case loop =>
    rw [← Option.some.inj hstep] at hafter
    simp only [Function.update_self] at hafter
    split_ifs at hafter
    · exact absurd hafter hrest
    · rcases hafter with h | h <;> cases h
  case reading =>
    rw [← Option.some.inj hstep, move_self] at hafter
    by_cases hzero : getval s fails = 0
    · rw [if_pos hzero] at hafter
      rcases hafter with h | h <;> cases h
    · exact Or.inr ⟨Or.inl hplace, hzero⟩
  case polling =>
    by_cases herror : getval s fails = -1
    · rw [if_pos herror] at hstep
      rw [← Option.some.inj hstep, move_self] at hafter
      rcases hafter with h | h <;> cases h
    · rw [if_neg herror] at hstep
      rw [← Option.some.inj hstep, move_self] at hafter
      by_cases hzero : getval s fails = 0
      · rw [if_pos hzero] at hafter
        rcases hafter with h | h <;> cases h
      · exact Or.inr ⟨Or.inr ⟨hplace, herror⟩, hzero⟩
  case passed => exact Or.inl (Or.inl rfl)
  case inside => exact Or.inl (Or.inr rfl)
  all_goals cases hstep

/-- A step leaves the other process where it is. -/
theorem process_other (hstep : step s e = some t) :
    t.process e.who.other = s.process e.who.other := by
  rcases e with ⟨who, fails⟩
  cases who with
  | child => exact rounds_other hstep
  | parent =>
      simp only [step, parent] at hstep
      split at hstep
      · split_ifs at hstep
        rw [← Option.some.inj hstep, move_other]
      · rw [← Option.some.inj hstep, move_other]
      · exact rounds_other hstep

/-- Only a read that passes makes a process committed. -/
theorem committed_step (hstep : step s e = some t)
    (hafter : (t.process e.who).place.committed) :
    (s.process e.who).place.committed ∨ passes s e := by
  rcases e with ⟨who, fails⟩
  cases who with
  | child =>
      refine rounds_committed ?_ hstep hafter
      rintro (h | h) <;> cases h
  | parent =>
      simp only [step, parent] at hstep
      split at hstep
      · split_ifs at hstep
        rw [← Option.some.inj hstep, move_self] at hafter
        rcases hafter with h | h <;> cases h
      · rw [← Option.some.inj hstep, move_self] at hafter
        rcases hafter with h | h <;> cases h
      · refine rounds_committed ?_ hstep hafter
        rintro (h | h) <;> cases h

/-- A read that passes makes its process committed. -/
theorem committed_of_passes (hpasses : passes s e) (hstep : step s e = some t) :
    (t.process e.who).place.committed := by
  rcases e with ⟨who, fails⟩
  have hrounds : ∃ rest, rounds who rest s fails = some t := by
    cases who with
    | child => exact ⟨.ended, hstep⟩
    | parent =>
        refine ⟨.waiting, ?_⟩
        rcases hpasses.1 with hplace | ⟨hplace, _⟩ <;>
          · simp only [step, parent] at hstep
            rw [hplace] at hstep
            exact hstep
  rcases hrounds with ⟨rest, hrounds⟩
  unfold rounds at hrounds
  rcases hpasses with ⟨hplace | ⟨hplace, herror⟩, hzero⟩
  · rw [hplace] at hrounds
    rw [← Option.some.inj hrounds, move_self, if_neg hzero]
    exact Or.inl rfl
  · rw [hplace] at hrounds
    simp only [if_neg herror] at hrounds
    rw [← Option.some.inj hrounds, move_self, if_neg hzero]
    exact Or.inl rfl

/-- A committed process can get inside at once. -/
theorem inside_of_committed (hcommitted : (s.process who).place.committed) :
    ∃ es u, run step s es = some u ∧ (u.process who).place = .inside ∧
      u.process who.other = s.process who.other := by
  rcases hcommitted with hplace | hplace
  · have hset : step s ⟨who, false⟩ = some { s.move who .inside with val := setval s false 0 } := by
      cases who <;> simp only [step, parent, child, rounds, hplace]
    refine ⟨[⟨who, false⟩], { s.move who .inside with val := setval s false 0 }, ?_,
      move_self s who .inside, move_other s who .inside⟩
    rw [run, hset, Option.bind_some, run]
  · exact ⟨[], s, rfl, hplace, rfl⟩

end Steps

/-- Not both processes are committed. -/
def OneCommitted (s : State) : Prop :=
  ∀ who, (s.process who).place.committed → ¬ (s.process who.other).place.committed

section Runs

variable {s t : State} {e : Event}

theorem other_other (who : Who) : who.other.other = who := by
  cases who <;> rfl

theorem eq_or_other (who who' : Who) : who' = who ∨ who' = who.other := by
  cases who <;> cases who' <;> decide

theorem oneCommitted_step (h : OneCommitted s) (hapart : Apart s e) (hstep : step s e = some t) :
    OneCommitted t := by
  have hother := process_other hstep
  -- While the process that moves is committed, the other one is not.
  have hmover : (t.process e.who).place.committed →
      ¬ (t.process e.who.other).place.committed := by
    intro hafter
    rw [hother]
    rcases committed_step hstep hafter with hbefore | hpasses
    · exact h e.who hbefore
    · exact hapart hpasses
  intro who hcommitted
  rcases eq_or_other e.who who with rfl | rfl
  · exact hmover hcommitted
  · rw [other_other]
    exact fun hafter => hmover hafter hcommitted

theorem exclusive_of_oneCommitted (h : OneCommitted s) : Exclusive s :=
  fun ⟨hparent, hchild⟩ => h .parent (Or.inr hparent) (Or.inr hchild)

theorem oneCommitted_start (val : Nat) (parentLoopCounter childLoopCounter : Int) :
    OneCommitted (start val parentLoopCounter childLoopCounter) := by
  intro who hcommitted
  cases who <;> rcases hcommitted with h | h <;> cases h

/-- Two committed processes can both get inside. -/
theorem both_inside (who : Who) (hmover : (s.process who).place.committed)
    (hother : (s.process who.other).place.committed) :
    ∃ es u, run step s es = some u ∧ ¬ Exclusive u := by
  rcases inside_of_committed hmover with ⟨es, u, hrun, hinside, hsame⟩
  rw [← hsame] at hother
  rcases inside_of_committed hother with ⟨es', v, hrun', hinside', hsame'⟩
  rw [other_other] at hsame'
  refine ⟨es ++ es', v, run_append_eq_some.mpr ⟨u, hrun, hrun'⟩, fun hexclusive => ?_⟩
  rw [← hsame'] at hinside
  cases who with
  | parent => exact hexclusive ⟨hinside, hinside'⟩
  | child => exact hexclusive ⟨hinside', hinside⟩

end Runs

/-- For any value of the semaphore at the start, any loop counters, any failures
    and any interleaving: as long as a process passes its test only while the
    other one is not between its own and its set to 1, at most one of them is
    inside; and wherever a process does pass while the other one is there, some
    further steps bring both inside. -/
theorem exclusive_while_apart (val : Nat) (parentLoopCounter childLoopCounter : Int) (s : State)
    (hreach : Reaches step Apart (start val parentLoopCounter childLoopCounter) s) :
    Exclusive s ∧
    ∀ e t, step s e = some t → ¬ Apart s e → ∃ es u, run step t es = some u ∧ ¬ Exclusive u := by
  have h : OneCommitted s := hreach.invariant
    (oneCommitted_start val parentLoopCounter childLoopCounter)
    fun _ _ _ hv hapart hstep => oneCommitted_step hv hapart hstep
  refine ⟨exclusive_of_oneCommitted h, fun e t hstep hbreach => ?_⟩
  unfold Apart at hbreach
  simp only [Classical.not_imp, not_not] at hbreach
  rcases hbreach with ⟨hpasses, hcommitted⟩
  refine both_inside e.who (committed_of_passes hpasses hstep) ?_
  rw [process_other hstep]
  exact hcommitted

/-- The parent polls while the child is inside, and gets inside after it. -/
def takingTurns : List Event :=
  List.replicate 3 ⟨.child, false⟩ ++ List.replicate 3 ⟨.parent, false⟩ ++
    [⟨.child, false⟩] ++ List.replicate 2 ⟨.parent, false⟩

instance (place : Place) : Decidable place.committed := inferInstanceAs (Decidable (_ ∨ _))

instance (s : State) (e : Event) : Decidable (passes s e) := inferInstanceAs (Decidable (_ ∧ _))

instance (s : State) (e : Event) : Decidable (Apart s e) := inferInstanceAs (Decidable (_ → _))

theorem exclusive_while_apart_run :
    ∃ s, run step (start 1 1 1) takingTurns = some s ∧
      (s.process .parent).place = .inside ∧ Exclusive s := by
  have hmeets : Meets step Apart (start 1 1 1) takingTurns := by decide +kernel
  have hend : (run step (start 1 1 1) takingTurns).map
      (fun s => (s.process .parent).place) = some .inside := by decide +kernel
  rcases Option.map_eq_some_iff.mp hend with ⟨s, hrun, hparent⟩
  exact ⟨s, hrun, hparent, (exclusive_while_apart 1 1 1 s (reaches_of_run hrun hmeets)).1⟩

/-- Both processes pass their tests before either of them sets the semaphore to
    0; their calls succeed or fail throughout. -/
def bothPass (fails : Bool) : List Event :=
  [⟨.parent, fails⟩, ⟨.child, fails⟩, ⟨.parent, fails⟩, ⟨.child, fails⟩, ⟨.parent, fails⟩,
    ⟨.child, fails⟩]

theorem both_pass_inside :
    (∃ s, run step (start 1 1 1) (bothPass false) = some s ∧ ¬ Exclusive s) ∧
      ∃ s, run step (start 0 1 1) (bothPass true) = some s ∧ ¬ Exclusive s := by
  have hend : ∀ val fails, (val = 1 ∧ fails = false ∨ val = 0 ∧ fails = true) →
      (run step (start val 1 1) (bothPass fails)).map
        (fun s => ((s.process .parent).place, (s.process .child).place)) =
          some (.inside, .inside) := by
    rintro val fails (⟨rfl, rfl⟩ | ⟨rfl, rfl⟩) <;> decide +kernel
  constructor
  · rcases Option.map_eq_some_iff.mp (hend 1 false (Or.inl ⟨rfl, rfl⟩)) with ⟨s, hrun, hplaces⟩
    exact ⟨s, hrun, fun hexclusive => hexclusive (Prod.mk.inj hplaces)⟩
  · rcases Option.map_eq_some_iff.mp (hend 0 true (Or.inr ⟨rfl, rfl⟩)) with ⟨s, hrun, hplaces⟩
    exact ⟨s, hrun, fun hexclusive => hexclusive (Prod.mk.inj hplaces)⟩

end Polling

end Kolos

end OsLabs
