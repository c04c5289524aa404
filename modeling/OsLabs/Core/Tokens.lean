import Mathlib.Data.List.TakeWhile

/-!
# Tokens of a Text

Taking a text apart at separators, one token at a time, as `strtok` does. The
separators in front of a token are skipped, and the one that ends it is taken
along, so that the next call may use other separators and still begins behind
it.

`FirstToken` says what the first token of a text is without saying how it is
found, and `nextToken_eq_some_iff` that it is what is found.

## Main definitions

* `nextToken`: The next token, and the text left behind its separator.
* `FirstToken`: A token is the first one of a text.

## Theorems

* `nextToken_eq_some_iff`: What is found is the first token.
* `nextToken_whole`: Without separators the text is one token.
-/

namespace OsLabs

section Tokens

variable {α : Type*} (sep : α → Bool)

/-- The next token of a text, and what is left behind the separator that ends
    it. -/
def nextToken (s : List α) : Option (List α × List α) :=
  match s.dropWhile sep with
  | [] => none
  | c :: t => some ((c :: t).takeWhile fun c => !sep c, ((c :: t).dropWhile fun c => !sep c).tail)

/-- The first token of a text has nothing but separators before it, and ends at
    a separator or at the end of the text. -/
structure FirstToken (s token rest : List α) : Prop where
  nonempty : token ≠ []
  inside : ∀ c ∈ token, sep c = false
  place : ∃ gap, (∀ c ∈ gap, sep c = true) ∧
    (s = gap ++ token ∧ rest = [] ∨ ∃ c, sep c = true ∧ s = gap ++ (token ++ c :: rest))

variable {sep} {s token rest : List α}

/-- What is found in a text that has a first token. -/
theorem nextToken_of_first (h : FirstToken sep s token rest) :
    nextToken sep s = some (token, rest) := by
  rcases h.place with ⟨gap, hgap, hplace⟩
  have hall : ∀ c ∈ token, (!sep c) = true := fun c hc => by rw [h.inside c hc]; rfl
  rcases List.exists_cons_of_ne_nil h.nonempty with ⟨d, l, hcons⟩
  have hd : sep d = false := h.inside d (by rw [hcons]; exact List.mem_cons_self)
  -- Skipping the separators leads to the token, whatever follows it.
  have hskip : ∀ tail, (gap ++ (token ++ tail)).dropWhile sep = d :: (l ++ tail) := by
    intro tail
    rw [List.dropWhile_append_of_pos hgap, hcons, List.cons_append, List.dropWhile_cons, hd]
    rfl
  have hfront : ∀ tail, d :: (l ++ tail) = token ++ tail := fun tail => by rw [hcons]; rfl
  rcases hplace with ⟨rfl, rfl⟩ | ⟨c, hc, rfl⟩
  · have hend := hskip []
    rw [List.append_nil] at hend
    rw [nextToken, hend]
    simp only []
    rw [hfront, List.append_nil, List.takeWhile_eq_self_iff.mpr hall,
      List.dropWhile_eq_nil_iff.mpr hall]
    rfl
  · have hstop : (!sep c) = false := by rw [hc]; rfl
    rw [nextToken, hskip]
    simp only []
    rw [hfront, List.takeWhile_append_of_pos hall, List.dropWhile_append_of_pos hall,
      List.takeWhile_cons, List.dropWhile_cons, hstop]
    simp only [Bool.false_eq_true, if_false, List.append_nil, List.tail_cons]

/-- Where dropping stops the property fails. -/
theorem dropWhile_cons_false {p : α → Bool} {c : α} {t : List α} (h : s.dropWhile p = c :: t) :
    p c = false := by
  have hhead := List.head?_dropWhile_not p s
  rw [h] at hhead
  exact hhead

/-- What is found is a first token. -/
theorem first_of_nextToken (h : nextToken sep s = some (token, rest)) :
    FirstToken sep s token rest := by
  have hsplit : s.takeWhile sep ++ s.dropWhile sep = s := List.takeWhile_append_dropWhile
  have hgap : ∀ c ∈ s.takeWhile sep, sep c = true := fun c hc => List.mem_takeWhile_imp hc
  unfold nextToken at h
  cases hdrop : s.dropWhile sep with
  | nil =>
      rw [hdrop] at h
      cases h
  | cons c t =>
      rw [hdrop] at h hsplit
      have hc := dropWhile_cons_false hdrop
      have hword : (c :: t).takeWhile (fun c => !sep c) ++ (c :: t).dropWhile (fun c => !sep c)
          = c :: t := List.takeWhile_append_dropWhile
      simp only [Option.some.injEq, Prod.mk.injEq] at h
      rcases h with ⟨rfl, rfl⟩
      refine ⟨?_, fun d hd => ?_, s.takeWhile sep, hgap, ?_⟩
      · rw [List.takeWhile_cons, hc]
        exact List.cons_ne_nil _ _
      · have hnot := List.mem_takeWhile_imp hd
        rw [Bool.not_eq_true'] at hnot
        exact hnot
      · cases hend : (c :: t).dropWhile (fun c => !sep c) with
        | nil =>
            rw [hend, List.append_nil] at hword
            exact Or.inl ⟨by rw [hword, hsplit], rfl⟩
        | cons d u =>
            have hd := dropWhile_cons_false hend
            rw [Bool.not_eq_false'] at hd
            rw [hend] at hword
            exact Or.inr ⟨d, hd, by rw [List.tail_cons, hword, hsplit]⟩

theorem nextToken_eq_some_iff :
    nextToken sep s = some (token, rest) ↔ FirstToken sep s token rest :=
  ⟨first_of_nextToken, nextToken_of_first⟩

/-- Without separators the whole text is one token. -/
theorem nextToken_whole (hsep : ∀ c, sep c = false) (hne : s ≠ []) :
    nextToken sep s = some (s, []) :=
  nextToken_of_first ⟨hne, fun c _ => hsep c, [], fun _ hc => absurd hc List.not_mem_nil,
    Or.inl ⟨rfl, rfl⟩⟩

end Tokens

end OsLabs
