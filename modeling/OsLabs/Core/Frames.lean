import Mathlib.Data.List.Infix

/-!
# Records of One Size on a Stream

Records that all have the same length need nothing between them: a stream that
consists of them is taken apart in one way only. So a reader that has cut the
beginning of such a stream into pieces of that length has the first records.

## Main definitions

* `Sized`: All records have the length.

## Theorems

* `Sized.length_flatten`: The length of a stream of records.
* `Sized.isPrefix`: What is cut from the beginning of a stream are the first
  records.
-/

namespace OsLabs

variable {α : Type*} {n : Nat}

/-- All records have the length `n`. -/
def Sized (n : Nat) (records : List (List α)) : Prop :=
  ∀ record ∈ records, record.length = n

theorem sized_nil : Sized n ([] : List (List α)) :=
  fun _ h => absurd h List.not_mem_nil

theorem Sized.append_one {records : List (List α)} (h : Sized n records) {record : List α}
    (hlen : record.length = n) : Sized n (records ++ [record]) := by
  intro r hr
  rcases List.mem_append.mp hr with hr | hr
  · exact h r hr
  · rw [List.mem_singleton.mp hr]
    exact hlen

theorem Sized.length_flatten {records : List (List α)} (h : Sized n records) :
    records.flatten.length = n * records.length := by
  induction records with
  | nil => simp
  | cons record records ih =>
      have hlen := h record List.mem_cons_self
      have hrest := ih fun r hr => h r (List.mem_cons_of_mem _ hr)
      rw [List.flatten_cons, List.length_append, hlen, hrest, List.length_cons, Nat.mul_succ]
      omega

/-- If a stream of records begins with other records of their size, these are
    its first ones. -/
theorem Sized.isPrefix (hn : 0 < n) {rest : List α} {first : List (List α)}
    (hfirst : Sized n first) :
    ∀ {all : List (List α)}, Sized n all → first.flatten ++ rest <+: all.flatten →
      first <+: all := by
  induction first with
  | nil => exact fun _ _ => List.nil_prefix
  | cons f first ih =>
      intro all hall hpre
      have hf := hfirst f List.mem_cons_self
      cases all with
      | nil =>
          -- A record is not empty, and so not at the beginning of nothing.
          have hlen := hpre.length_le
          simp only [List.flatten_cons, List.flatten_nil, List.length_append,
            List.length_nil] at hlen
          omega
      | cons a all =>
          have ha := hall a List.mem_cons_self
          rcases hpre with ⟨more, hmore⟩
          simp only [List.flatten_cons, List.append_assoc] at hmore
          rcases List.append_inj hmore (hf.trans ha.symm) with ⟨rfl, htail⟩
          have hpre' : first.flatten ++ rest <+: all.flatten :=
            ⟨more, by rw [List.append_assoc]; exact htail⟩
          have hrest := ih (fun r hr => hfirst r (List.mem_cons_of_mem _ hr))
            (fun r hr => hall r (List.mem_cons_of_mem _ hr)) hpre'
          exact List.cons_prefix_cons.mpr ⟨rfl, hrest⟩

end OsLabs
