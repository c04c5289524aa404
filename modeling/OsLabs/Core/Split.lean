import Mathlib.Data.List.Basic

/-!
# Lists Separated by Two Elements

Words joined by a separator of two elements, and taken apart again. Joining is
`List.intercalate`. Taking apart looks for the first element of the separator
followed by the second, and is the inverse of joining as long as no word has
the first element in it.

The other way round nothing is asked: what taking apart gives, joined again, is
the list it was taken from.

## Main definitions

* `splitPair`: The words between separators.

## Theorems

* `splitPair_intercalate`: Words are recovered from the list they are joined to.
* `intercalate_splitPair`: A list is recovered from its words.
* `intercalate_concat`: One more word at the end.
-/

namespace OsLabs

section Join

variable {α : Type*}

/-- An element in front of the first word is in front of the joined list. -/
theorem intercalate_modifyHead (sep : List α) (x : α) {ws : List (List α)} (hne : ws ≠ []) :
    sep.intercalate (ws.modifyHead (x :: ·)) = x :: sep.intercalate ws := by
  cases ws with
  | nil => exact absurd rfl hne
  | cons w ws => exact List.intercalate_cons_cons_left

/-- One more word at the end, after a separator if it is not the first. -/
theorem intercalate_concat (sep : List α) (ws : List (List α)) (w : List α) :
    sep.intercalate (ws ++ [w])
      = sep.intercalate ws ++ (if ws = [] then w else sep ++ w) := by
  induction ws with
  | nil => rw [List.nil_append, List.intercalate_singleton, if_pos rfl]; rfl
  | cons v ws ih =>
      rw [if_neg (List.cons_ne_nil v ws)]
      cases ws with
      | nil =>
          rw [List.cons_append, List.nil_append, List.intercalate_cons_cons,
            List.intercalate_singleton, List.intercalate_singleton, List.append_assoc]
      | cons u ws =>
          rw [if_neg (List.cons_ne_nil u ws)] at ih
          rw [List.cons_append, List.cons_append, List.intercalate_cons_cons,
            List.intercalate_cons_cons, ← List.cons_append, ih]
          simp only [List.append_assoc]

end Join

section Split

variable {α : Type*} [DecidableEq α] (a b : α)

/-- The words of a list, which are separated by `a` and `b` in this order. -/
def splitPair : List α → List (List α)
  | [] => [[]]
  | [x] => [[x]]
  | x :: y :: rest =>
    if x = a ∧ y = b then [] :: splitPair rest
    else (splitPair (y :: rest)).modifyHead (x :: ·)

variable {a b}

theorem splitPair_ne_nil (l : List α) : splitPair a b l ≠ [] := by
  fun_induction splitPair a b l with
  | case1 => exact List.cons_ne_nil _ _
  | case2 x => exact List.cons_ne_nil _ _
  | case3 x y rest hsep ih => exact List.cons_ne_nil _ _
  | case4 x y rest hsep ih =>
      intro hnil
      exact ih (List.modifyHead_eq_nil_iff.mp hnil)

/-- An element that does not begin a separator belongs to the first word. -/
theorem splitPair_cons {x : α} (hx : x ≠ a) (l : List α) :
    splitPair a b (x :: l) = (splitPair a b l).modifyHead (x :: ·) := by
  cases l with
  | nil => rfl
  | cons y rest => rw [splitPair, if_neg fun hsep => hx hsep.1]

/-- A list without the first element of the separator is one word. -/
theorem splitPair_of_not_mem {w : List α} (h : a ∉ w) : splitPair a b w = [w] := by
  induction w with
  | nil => rfl
  | cons x w ih =>
      rw [List.mem_cons, not_or] at h
      rw [splitPair_cons (Ne.symm h.1), ih h.2]
      rfl

/-- The first word ends at the first separator. -/
theorem splitPair_append {w : List α} (h : a ∉ w) (l : List α) :
    splitPair a b (w ++ a :: b :: l) = w :: splitPair a b l := by
  induction w with
  | nil => rw [List.nil_append, splitPair, if_pos ⟨rfl, rfl⟩]
  | cons x w ih =>
      rw [List.mem_cons, not_or] at h
      rw [List.cons_append, splitPair_cons (Ne.symm h.1), ih h.2]
      rfl

/-- Words without the first element of the separator are recovered from the
    list they are joined to. -/
theorem splitPair_intercalate {ws : List (List α)} (h : ∀ w ∈ ws, a ∉ w) (hne : ws ≠ []) :
    splitPair a b ([a, b].intercalate ws) = ws := by
  induction ws with
  | nil => exact absurd rfl hne
  | cons w ws ih =>
      have hw := h w List.mem_cons_self
      cases ws with
      | nil => rw [List.intercalate_singleton, splitPair_of_not_mem hw]
      | cons v ws =>
          have hrest := ih (fun u hu => h u (List.mem_cons_of_mem w hu)) (List.cons_ne_nil v ws)
          rw [List.intercalate_cons_cons, List.append_assoc]
          change splitPair a b (w ++ a :: b :: [a, b].intercalate (v :: ws)) = _
          rw [splitPair_append hw, hrest]

/-- A list is recovered from its words. -/
theorem intercalate_splitPair (l : List α) : [a, b].intercalate (splitPair a b l) = l := by
  fun_induction splitPair a b l with
  | case1 => rfl
  | case2 x => rw [List.intercalate_singleton]
  | case3 x y rest hsep ih =>
      rw [List.intercalate_cons_of_ne_nil (splitPair_ne_nil rest), ih, hsep.1, hsep.2]
      rfl
  | case4 x y rest hsep ih => rw [intercalate_modifyHead _ _ (splitPair_ne_nil _), ih]

end Split

end OsLabs
