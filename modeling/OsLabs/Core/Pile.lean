import Mathlib.Data.List.Perm.Basic
import Mathlib.Order.Basic
import OsLabs.Core.Run

/-!
# What Comes off a Pile

A pile of limited height that is fed from a list: an element is put on top, or
the top one is taken off. The words of these two operations that can be carried
out say everything about it.

What has come off, what lies on the pile and what is still to come are together
what there was at first. If the elements are put on in increasing order, they do
not come off in any order: what lies under an element comes off after it, and
the larger first. So after a large element no two smaller ones come off in
increasing order.

## Main definitions

* `PileOp`, `Pile`, `pileStep`: The two operations.
* `Pile.of`: A pile before anything has been put on it.
* `Nested`: No two smaller elements follow a larger one in increasing order.

## Theorems

* `pile_perm`: Nothing is lost or doubled.
* `pile_nested`: What comes off is nested.
-/

namespace OsLabs

/-- An operation on a pile. -/
inductive PileOp
  | push
  | pop
  deriving DecidableEq

/-- What is to be put on the pile, what lies on it from the top, and what has
    come off it. -/
structure Pile (α : Type*) where
  rest : List α
  stack : List α
  out : List α

variable {α : Type*}

/-- A pile that may be `cap` elements high. -/
def pileStep (cap : Nat) (p : Pile α) : PileOp → Option (Pile α)
  | .push => match p.rest with
    | [] => none
    | a :: rest =>
      if p.stack.length < cap then some { p with rest := rest, stack := a :: p.stack } else none
  | .pop => match p.stack with
    | [] => none
    | a :: stack => some { p with stack := stack, out := p.out ++ [a] }

/-- A pile before anything has been put on it. -/
def Pile.of (inputs : List α) : Pile α where
  rest := inputs
  stack := []
  out := []

/-- No two smaller elements follow a larger one in increasing order. -/
def Nested [LT α] (l : List α) : Prop :=
  ∀ a b c, [a, b, c].Sublist l → b < c → ¬ c < a

section Piles

variable {cap : Nat} {p q : Pile α} {ops : List PileOp}

theorem pileStep_push (h : pileStep cap p .push = some q) :
    ∃ a rest, p.rest = a :: rest ∧ p.stack.length < cap ∧
      q = { p with rest := rest, stack := a :: p.stack } := by
  cases hrest : p.rest with
  | nil => simp [pileStep, hrest] at h
  | cons a rest =>
      simp only [pileStep, hrest] at h
      by_cases hroom : p.stack.length < cap
      · rw [if_pos hroom] at h
        exact ⟨a, rest, rfl, hroom, (Option.some.inj h).symm⟩
      · rw [if_neg hroom] at h
        cases h

theorem pileStep_pop (h : pileStep cap p .pop = some q) :
    ∃ a stack, p.stack = a :: stack ∧ q = { p with stack := stack, out := p.out ++ [a] } := by
  cases hstack : p.stack with
  | nil => simp [pileStep, hstack] at h
  | cons a stack =>
      simp only [pileStep, hstack, Option.some.injEq] at h
      exact ⟨a, stack, rfl, h.symm⟩

/-- What both operations keep, every word keeps. -/
theorem pile_invariant (Inv : Pile α → Prop)
    (hpush : ∀ p a rest, Inv p → p.rest = a :: rest → p.stack.length < cap →
      Inv { p with rest := rest, stack := a :: p.stack })
    (hpop : ∀ p a stack, Inv p → p.stack = a :: stack →
      Inv { p with stack := stack, out := p.out ++ [a] })
    (h : Inv p) (hrun : run (pileStep cap) p ops = some q) : Inv q := by
  induction ops generalizing p with
  | nil =>
      rw [run, Option.some.injEq] at hrun
      rw [← hrun]
      exact h
  | cons op ops ih =>
      rcases run_cons_eq_some.mp hrun with ⟨p', hstep, hrest⟩
      refine ih ?_ hrest
      cases op with
      | push =>
          rcases pileStep_push hstep with ⟨a, rest, hp, hroom, rfl⟩
          exact hpush p a rest h hp hroom
      | pop =>
          rcases pileStep_pop hstep with ⟨a, stack, hp, rfl⟩
          exact hpop p a stack h hp

/-- What has come off, what lies on the pile and what is to come. -/
def Pile.all (p : Pile α) : List α := p.out ++ (p.stack ++ p.rest)

theorem pile_perm (hrun : run (pileStep cap) p ops = some q) : q.all.Perm p.all := by
  refine pile_invariant (fun q => q.all.Perm p.all) ?_ ?_ (List.Perm.refl _) hrun
  · intro q a rest h hq _
    refine List.Perm.trans ?_ h
    unfold Pile.all
    rw [hq]
    exact List.Perm.append_left _ List.perm_middle.symm
  · intro q a stack h hq
    refine List.Perm.trans ?_ h
    unfold Pile.all
    rw [hq, List.append_assoc]
    exact List.Perm.refl _

/-- What keeps the elements that come off nested: the pile decreases from the
    top, everything to come is larger, and nothing on the pile lies between two
    elements that have come off in decreasing order. -/
structure Stacked [Preorder α] (p : Pile α) : Prop where
  rest : p.rest.Pairwise (· < ·)
  stack : p.stack.Pairwise (· > ·)
  above : ∀ a ∈ p.rest, (∀ b ∈ p.stack, b < a) ∧ ∀ b ∈ p.out, b < a
  between : ∀ a b, [a, b].Sublist p.out → ∀ c ∈ p.stack, b < c → ¬ c < a
  nested : Nested p.out

/-- A list of elements that is a part of one with a further element at the end. -/
theorem sublist_append_one {l m : List α} {a : α} (h : l.Sublist (m ++ [a])) :
    l.Sublist m ∨ ∃ l', l = l' ++ [a] ∧ l'.Sublist m := by
  rcases List.sublist_append_iff.mp h with ⟨l₁, l₂, rfl, hfirst, hlast⟩
  rcases List.sublist_singleton.mp hlast with rfl | rfl
  · rw [List.append_nil]
    exact Or.inl hfirst
  · exact Or.inr ⟨l₁, rfl, hfirst⟩

variable [Preorder α]

theorem stacked_push {a : α} {rest : List α} (h : Stacked p) (hp : p.rest = a :: rest) :
    Stacked { p with rest := rest, stack := a :: p.stack } := by
  have hrest := h.rest
  rw [hp] at hrest
  rcases List.pairwise_cons.mp hrest with ⟨hsmall, hsorted⟩
  have ha := h.above a (by rw [hp]; exact List.mem_cons_self)
  refine ⟨hsorted, List.pairwise_cons.mpr ⟨ha.1, h.stack⟩, fun x hx => ⟨fun b hb => ?_, ?_⟩,
    fun x y hxy c hc hyc => ?_, h.nested⟩
  · rcases List.mem_cons.mp hb with rfl | hb
    · exact hsmall x hx
    · exact (h.above x (by rw [hp]; exact List.mem_cons_of_mem _ hx)).1 b hb
  · exact (h.above x (by rw [hp]; exact List.mem_cons_of_mem _ hx)).2
  · rcases List.mem_cons.mp hc with rfl | hc
    · -- The new element is larger than all that have come off.
      intro hcx
      exact lt_asymm hcx (ha.2 x (hxy.subset List.mem_cons_self))
    · exact h.between x y hxy c hc hyc

theorem stacked_pop {a : α} {stack : List α} (h : Stacked p) (hp : p.stack = a :: stack) :
    Stacked { p with stack := stack, out := p.out ++ [a] } := by
  have hstack := h.stack
  rw [hp] at hstack
  rcases List.pairwise_cons.mp hstack with ⟨htop, hsorted⟩
  have hmem : a ∈ p.stack := by rw [hp]; exact List.mem_cons_self
  refine ⟨h.rest, hsorted, fun x hx => ⟨fun b hb => ?_, fun b hb => ?_⟩,
    fun x y hxy c hc hyc => ?_, fun x y z hxyz hyz => ?_⟩
  · exact (h.above x hx).1 b (by rw [hp]; exact List.mem_cons_of_mem _ hb)
  · rcases List.mem_append.mp hb with hb | hb
    · exact (h.above x hx).2 b hb
    · rw [List.mem_singleton.mp hb]
      exact (h.above x hx).1 a hmem
  · rcases sublist_append_one hxy with hold | ⟨l', hl', _⟩
    · exact h.between x y hold c (by rw [hp]; exact List.mem_cons_of_mem _ hc) hyc
    · -- What is left on the pile is smaller than what was on top of it.
      have hy : y = a := by
        have hlast := congrArg List.getLast? hl'
        simpa using hlast
      rw [hy] at hyc
      exact absurd (htop c hc) (lt_asymm hyc)
  · rcases sublist_append_one hxyz with hold | ⟨l', hl', hsub⟩
    · exact h.nested x y z hold hyz
    · have hsplit : l' = [x, y] ∧ z = a := by
        have hinit : [x, y] ++ [z] = l' ++ [a] := hl'
        rcases List.append_inj' hinit rfl with ⟨hfront, hback⟩
        exact ⟨hfront.symm, List.singleton_inj.mp hback⟩
      rw [hsplit.1] at hsub
      rw [hsplit.2] at hyz ⊢
      exact h.between x y hsub a hmem hyz

/-- If the elements are put on in increasing order, what comes off is nested. -/
theorem pile_nested {inputs : List α} (hsorted : inputs.Pairwise (· < ·))
    (hrun : run (pileStep cap) (Pile.of inputs) ops = some q) : Nested q.out := by
  have hstart : Stacked (Pile.of inputs) := by
    refine ⟨hsorted, List.Pairwise.nil, fun a _ => ⟨?_, ?_⟩, fun a b h => ?_, fun a b c h => ?_⟩
    · exact fun b hb => absurd hb List.not_mem_nil
    · exact fun b hb => absurd hb List.not_mem_nil
    · exact absurd (List.sublist_nil.mp h) (List.cons_ne_nil _ _)
    · exact absurd (List.sublist_nil.mp h) (List.cons_ne_nil _ _)
  have hend : Stacked q := pile_invariant Stacked (fun p a rest h hp _ => stacked_push h hp)
    (fun p a stack h hp => stacked_pop h hp) hstart hrun
  exact hend.nested

end Piles

end OsLabs
