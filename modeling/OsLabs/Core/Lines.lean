import Mathlib.Data.List.Basic

/-!
# Lines and Pieces of Lines

A text that is read piece by piece. A reader that stops at the end of a line,
or earlier, hands out pieces with the separator in the last place or not at
all. Whether they are the lines of the text can be read off two numbers: there
are as many separators as pieces.

## Main definitions

* `unlines`: Lines, each followed by a separator.
* `Terminated`: A piece is a whole line with its separator.

## Theorems

* `firstLine_cases`: How a text begins.
* `count_unlines`: A text has as many separators as lines.
* `terminated_of_count`: Pieces with as many separators are lines.
* `unlines_of_terminated`: Lines are the text they are cut from.
-/

namespace OsLabs

section Lines

variable {α : Type*} (sep : α)

/-- The text of lines, each of which is followed by a separator. -/
def unlines (lines : List (List α)) : List α := (lines.map fun line => line ++ [sep]).flatten

/-- A line and its separator, which is the only one. -/
def Terminated (p : List α) : Prop := ∃ line, sep ∉ line ∧ p = line ++ [sep]

variable {sep}

theorem unlines_of_terminated {pieces : List (List α)} (h : ∀ p ∈ pieces, Terminated sep p) :
    unlines sep (pieces.map List.dropLast) = pieces.flatten := by
  refine congrArg List.flatten ?_
  rw [List.map_map]
  refine (List.map_congr_left fun p hp => ?_).trans pieces.map_id
  rcases h p hp with ⟨line, _, rfl⟩
  simp only [Function.comp_apply, List.dropLast_concat, id_eq]

theorem dropLast_of_terminated {p : List α} (h : Terminated sep p) : sep ∉ p.dropLast := by
  rcases h with ⟨line, hline, rfl⟩
  rw [List.dropLast_concat]
  exact hline

variable [DecidableEq α]

/-- A text begins with a line that ends at a separator or at the end. -/
theorem firstLine_cases (sep : α) (s : List α) :
    ∃ line rest, sep ∉ line ∧ s.takeWhile (· ≠ sep) = line ∧ s = line ++ rest ∧
      (rest = [] ∨ ∃ tail, rest = sep :: tail) := by
  induction s with
  | nil => exact ⟨[], [], List.not_mem_nil, rfl, rfl, Or.inl rfl⟩
  | cons c s ih =>
      by_cases hc : c = sep
      · -- The line is empty.
        exact ⟨[], c :: s, List.not_mem_nil, by simp [hc], rfl, Or.inr ⟨s, by rw [hc]⟩⟩
      · rcases ih with ⟨line, rest, hline, htake, hs, hrest⟩
        refine ⟨c :: line, rest, ?_, ?_, by rw [hs]; rfl, hrest⟩
        · rw [List.mem_cons, not_or]
          exact ⟨fun h => hc h.symm, hline⟩
        · rw [List.takeWhile_cons_of_pos (by simpa using hc), htake]

theorem count_of_terminated {p : List α} (h : Terminated sep p) : p.count sep = 1 := by
  rcases h with ⟨line, hline, rfl⟩
  rw [List.count_append, List.count_eq_zero_of_not_mem hline, List.count_singleton_self]

/-- A text has as many separators as lines. -/
theorem count_unlines {lines : List (List α)} (h : ∀ line ∈ lines, sep ∉ line) :
    (unlines sep lines).count sep = lines.length := by
  induction lines with
  | nil => rfl
  | cons line lines ih =>
      have hrest := ih fun l hl => h l (List.mem_cons_of_mem line hl)
      have hfirst : (line ++ [sep]).count sep = 1 :=
        count_of_terminated ⟨line, h line List.mem_cons_self, rfl⟩
      rw [unlines, List.map_cons, List.flatten_cons, List.count_append, hfirst]
      rw [unlines] at hrest
      rw [hrest, List.length_cons, Nat.add_comm]

/-- No piece has more than one separator, so that there are as many only if
    each has its own. -/
theorem terminated_of_count {pieces : List (List α)}
    (h : ∀ p ∈ pieces, sep ∉ p ∨ Terminated sep p) :
    pieces.flatten.count sep ≤ pieces.length ∧
      (pieces.flatten.count sep = pieces.length → ∀ p ∈ pieces, Terminated sep p) := by
  induction pieces with
  | nil => exact ⟨Nat.le_refl 0, fun _ p hp => absurd hp List.not_mem_nil⟩
  | cons p pieces ih =>
      rcases ih fun q hq => h q (List.mem_cons_of_mem p hq) with ⟨hle, hall⟩
      rw [List.flatten_cons, List.count_append, List.length_cons]
      rcases h p List.mem_cons_self with hno | hline
      · -- A piece without a separator cannot be made up for by the others.
        rw [List.count_eq_zero_of_not_mem hno]
        exact ⟨by omega, fun hcount => absurd hcount (by omega)⟩
      · rw [count_of_terminated hline]
        refine ⟨by omega, fun hcount q hq => ?_⟩
        rcases List.mem_cons.mp hq with rfl | hq
        · exact hline
        · exact hall (by omega) q hq

end Lines

end OsLabs
