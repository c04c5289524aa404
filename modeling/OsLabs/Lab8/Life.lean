import Mathlib.Data.Finset.Card
import Mathlib.Data.Fintype.Prod
import OsLabs.Lab8.Grid

/-!
# The Game of Life

What `update_grid` should do, said cell by cell: a cell of the next generation
is alive if it is now and has two or three living neighbours, or if it is not
and has three. The neighbours are the cells around it that are in the grid, so
that whatever is outside counts as dead.

The function gets two pointers, and reads through the one while it writes
through the other. So it is written here on a memory, where a cell is an address
and reads and writes meet. If the two arrays do not overlap nothing that is
written is read, and the array written to is what `update_grid` makes of the two
grids.

## Main definitions

* `Cell`, `Alive`, `Adjacent`, `NextAlive`: The rules of the game.
* `Memory`, `gridAt`: A memory, and the grid at an address.
* `update_cell_at`, `update_row_at`, `update_grid_at`: The function, through its
  pointers.
* `Separate`: Two grids that do not overlap.

## Theorems

* `count_neighbours`: The two loops count the living neighbours.
* `is_alive_iff`: `is_alive` says what the rules say.
* `gridAt_update_grid_at`: The array written to is the next grid.
* `update_grid_life`: The function plays the game.
* `update_grid_life_blinker`: On a grid with three living cells.
-/

namespace OsLabs

namespace Lab8

/-- A row and a column of the grid. -/
abbrev Cell : Type := Fin GRID_HEIGHT × Fin GRID_WIDTH

/-- The place of a cell in the array. -/
def Cell.index (c : Cell) : Nat := c.1.val * GRID_WIDTH + c.2.val

/-- Any value but zero means that the cell is alive. -/
def Alive (grid : Grid) (c : Cell) : Prop := grid.get c.index ≠ 0

/-- Another cell, at most one row and one column away. -/
def Adjacent (c d : Cell) : Prop :=
  d ≠ c ∧ (-1 ≤ (d.1.val : Int) - c.1.val ∧ (d.1.val : Int) - c.1.val ≤ 1) ∧
    (-1 ≤ (d.2.val : Int) - c.2.val ∧ (d.2.val : Int) - c.2.val ≤ 1)

instance (grid : Grid) (c : Cell) : Decidable (Alive grid c) := inferInstanceAs (Decidable (_ ≠ _))

instance (c d : Cell) : Decidable (Adjacent c d) := inferInstanceAs (Decidable (_ ∧ _ ∧ _))

/-- The living neighbours of a cell. -/
def liveNeighbours (grid : Grid) (c : Cell) : Finset Cell :=
  Finset.univ.filter fun d => Adjacent c d ∧ Alive grid d

/-- The rule of the game. -/
def NextAlive (grid : Grid) (c : Cell) : Prop :=
  Alive grid c ∧ ((liveNeighbours grid c).card = 2 ∨ (liveNeighbours grid c).card = 3) ∨
    ¬ Alive grid c ∧ (liveNeighbours grid c).card = 3

instance (grid : Grid) (c : Cell) : Decidable (NextAlive grid c) :=
  inferInstanceAs (Decidable (_ ∨ _))

/-- A byte for each address. -/
abbrev Memory : Type := Nat → UInt8

/-- What stands in memory where a pointer to a grid points. -/
def gridAt (mem : Memory) (p : Nat) : Grid :=
  ⟨(List.range (GRID_WIDTH * GRID_HEIGHT)).map fun k => mem (p + k), by
    rw [List.length_map, List.length_range]⟩

/-- One turn of the inner loop: `is_alive` reads through `src`, and the result
    is stored through `dst`. -/
def update_cell_at (src dst i : Nat) (mem : Memory) (j : Nat) : Memory :=
  Function.update mem (dst + (i * GRID_WIDTH + j)) (is_alive i j (gridAt mem src)).toUInt8

/-- One turn of the outer loop. -/
def update_row_at (src dst : Nat) (mem : Memory) (i : Nat) : Memory :=
  (List.range GRID_WIDTH).foldl (update_cell_at src dst i) mem

/-- `update_grid` with the two pointers it is given. -/
def update_grid_at (src dst : Nat) (mem : Memory) : Memory :=
  (List.range GRID_HEIGHT).foldl (update_row_at src dst) mem

/-- The two grids have no byte in common. -/
def Separate (src dst : Nat) : Prop :=
  src + GRID_WIDTH * GRID_HEIGHT ≤ dst ∨ dst + GRID_WIDTH * GRID_HEIGHT ≤ src

section Rules

variable {grid : Grid} {c d : Cell} {n : Nat}

/-- The offset is counted: it leads to another cell, which is in the grid and
    alive. -/
def counts (grid : Grid) (c : Cell) (o : Int × Int) : Bool :=
  decide (¬ (o.1 = 0 ∧ o.2 = 0) ∧ ¬ ((c.1.val : Int) + o.1 < 0 ∨ (c.1.val : Int) + o.1 ≥ GRID_HEIGHT ∨
    (c.2.val : Int) + o.2 < 0 ∨ (c.2.val : Int) + o.2 ≥ GRID_WIDTH) ∧
    grid.get (GRID_WIDTH * ((c.1.val : Int) + o.1) + ((c.2.val : Int) + o.2)).toNat ≠ 0)

theorem count_at_eq (grid : Grid) (c : Cell) (n : Nat) (o : Int × Int) :
    count_at c.1.val c.2.val grid n o = if counts grid c o then n + 1 else n := by
  unfold count_at counts
  simp only [decide_eq_true_eq]
  by_cases hcentre : o.1 = 0 ∧ o.2 = 0
  · rw [if_pos hcentre, if_neg fun h => h.1 hcentre]
  · rw [if_neg hcentre]
    by_cases hout : (c.1.val : Int) + o.1 < 0 ∨ (c.1.val : Int) + o.1 ≥ GRID_HEIGHT ∨
        (c.2.val : Int) + o.2 < 0 ∨ (c.2.val : Int) + o.2 ≥ GRID_WIDTH
    · rw [if_pos hout, if_neg fun h => h.2.1 hout]
    · rw [if_neg hout]
      refine if_congr ?_ rfl rfl
      exact ⟨fun h => ⟨hcentre, hout, h⟩, fun h => h.2.2⟩

/-- The loops count the offsets that count. -/
theorem foldl_count (grid : Grid) (c : Cell) (l : List (Int × Int)) (n : Nat) :
    l.foldl (count_at c.1.val c.2.val grid) n = n + l.countP (counts grid c) := by
  induction l generalizing n with
  | nil => rfl
  | cons o l ih =>
      rw [List.foldl_cons, ih, count_at_eq, List.countP_cons]
      split_ifs <;> omega

theorem mem_around {o : Int × Int} :
    o ∈ around ↔ (-1 ≤ o.1 ∧ o.1 ≤ 1) ∧ -1 ≤ o.2 ∧ o.2 ≤ 1 := by
  have hall : ∀ o ∈ around, (-1 ≤ o.1 ∧ o.1 ≤ 1) ∧ -1 ≤ o.2 ∧ o.2 ≤ 1 := by decide
  refine ⟨hall o, ?_⟩
  rcases o with ⟨dy, dx⟩
  rintro ⟨⟨hy, hy'⟩, hx, hx'⟩
  have hrows : dy = -1 ∨ dy = 0 ∨ dy = 1 := by omega
  have hcols : dx = -1 ∨ dx = 0 ∨ dx = 1 := by omega
  rcases hrows with rfl | rfl | rfl <;> rcases hcols with rfl | rfl | rfl <;> decide

/-- The way from one cell to another. -/
def offset (c d : Cell) : Int × Int := ((d.1.val : Int) - c.1.val, (d.2.val : Int) - c.2.val)

theorem offset_injective (c : Cell) : Function.Injective (offset c) := by
  intro d e h
  rw [offset, offset, Prod.mk.injEq] at h
  exact Prod.ext (Fin.ext (by omega)) (Fin.ext (by omega))

/-- Where an offset leads in the grid is where the array is read. -/
theorem index_offset (c d : Cell) :
    (GRID_WIDTH * ((c.1.val : Int) + (offset c d).1) + ((c.2.val : Int) + (offset c d).2)).toNat
      = d.index := by
  have hy : (c.1.val : Int) + (offset c d).1 = d.1.val := by
    change (c.1.val : Int) + ((d.1.val : Int) - c.1.val) = d.1.val
    omega
  have hx : (c.2.val : Int) + (offset c d).2 = d.2.val := by
    change (c.2.val : Int) + ((d.2.val : Int) - c.2.val) = d.2.val
    omega
  rw [hy, hx, Cell.index]
  unfold GRID_WIDTH
  omega

/-- The offsets that count lead to the living neighbours. -/
theorem counts_offset (c d : Cell) :
    offset c d ∈ around ∧ counts grid c (offset c d) = true ↔ Adjacent c d ∧ Alive grid d := by
  have hy : (c.1.val : Int) + (offset c d).1 = d.1.val := by
    change (c.1.val : Int) + ((d.1.val : Int) - c.1.val) = d.1.val
    omega
  have hx : (c.2.val : Int) + (offset c d).2 = d.2.val := by
    change (c.2.val : Int) + ((d.2.val : Int) - c.2.val) = d.2.val
    omega
  have hylt := d.1.isLt
  have hxlt := d.2.isLt
  have hsame : (offset c d).1 = 0 ∧ (offset c d).2 = 0 ↔ d = c := by
    refine ⟨fun h => offset_injective c ?_, fun h => ?_⟩
    · rw [Prod.ext_iff, h.1, h.2]
      exact ⟨(Int.sub_self _).symm, (Int.sub_self _).symm⟩
    · rw [h]
      exact ⟨Int.sub_self _, Int.sub_self _⟩
  -- A cell is in the grid, so that nothing is clipped here.
  have hin : ¬ ((c.1.val : Int) + (offset c d).1 < 0 ∨ (c.1.val : Int) + (offset c d).1 ≥ GRID_HEIGHT ∨
      (c.2.val : Int) + (offset c d).2 < 0 ∨ (c.2.val : Int) + (offset c d).2 ≥ GRID_WIDTH) := by
    rw [hy, hx]
    omega
  unfold counts Adjacent Alive
  rw [mem_around, decide_eq_true_eq, index_offset, hsame, and_iff_right hin, offset]
  exact ⟨fun h => ⟨⟨h.2.1, h.1⟩, h.2.2⟩, fun h => ⟨h.1.2, h.1.1, h.2⟩⟩

/-- The two loops count the living neighbours. -/
theorem count_neighbours (grid : Grid) (c : Cell) :
    around.foldl (count_at c.1.val c.2.val grid) 0 = (liveNeighbours grid c).card := by
  have hnodup : (around.filter (counts grid c)).Nodup :=
    List.Nodup.filter _ (by decide : around.Nodup)
  have himage : (liveNeighbours grid c).image (offset c) = (around.filter (counts grid c)).toFinset := by
    ext o
    rw [Finset.mem_image, List.mem_toFinset, List.mem_filter]
    constructor
    · rintro ⟨d, hd, rfl⟩
      exact (counts_offset c d).mpr (Finset.mem_filter.mp hd).2
    · rintro ⟨hmem, hcounts⟩
      -- An offset that counts stays in the grid, and so leads to a cell.
      have hin := (decide_eq_true_eq.mp hcounts).2.1
      have hy : ((c.1.val : Int) + o.1).toNat < GRID_HEIGHT := by omega
      have hx : ((c.2.val : Int) + o.2).toNat < GRID_WIDTH := by omega
      have ho : offset c (⟨_, hy⟩, ⟨_, hx⟩) = o := by
        rw [Prod.ext_iff]
        simp only [offset]
        omega
      refine ⟨(⟨_, hy⟩, ⟨_, hx⟩), Finset.mem_filter.mpr ⟨Finset.mem_univ _, ?_⟩, ho⟩
      rw [← counts_offset, ho]
      exact ⟨hmem, hcounts⟩
  rw [foldl_count, Nat.zero_add, List.countP_eq_length_filter, ← List.toFinset_card_of_nodup hnodup,
    ← himage, Finset.card_image_of_injective _ (offset_injective c)]

/-- `is_alive` says what the rules say. -/
theorem is_alive_iff (grid : Grid) (c : Cell) :
    is_alive c.1.val c.2.val grid = true ↔ NextAlive grid c := by
  have hindex : ((c.1.val : Int) * GRID_WIDTH + c.2.val).toNat = c.index := by
    rw [Cell.index]
    unfold GRID_WIDTH
    omega
  unfold is_alive rule NextAlive Alive
  rw [count_neighbours, hindex]
  by_cases hcell : grid.get c.index ≠ 0
  · rw [if_pos hcell]
    by_cases hcount : (liveNeighbours grid c).card = 2 ∨ (liveNeighbours grid c).card = 3
    · rw [if_pos hcount]
      exact iff_of_true rfl (Or.inl ⟨hcell, hcount⟩)
    · rw [if_neg hcount]
      refine iff_of_false Bool.false_ne_true ?_
      rintro (h | h)
      · exact hcount h.2
      · exact h.1 hcell
  · rw [if_neg hcell]
    by_cases hcount : (liveNeighbours grid c).card = 3
    · rw [if_pos hcount]
      exact iff_of_true rfl (Or.inr ⟨hcell, hcount⟩)
    · rw [if_neg hcount]
      refine iff_of_false Bool.false_ne_true ?_
      rintro (h | h)
      · exact hcell h.1
      · exact hcount h.2

end Rules

section Pointers

variable {mem : Memory} {src dst p : Nat}

theorem get_gridAt {k : Nat} (hk : k < GRID_WIDTH * GRID_HEIGHT) :
    (gridAt mem p).get k = mem (p + k) := by
  rw [CharArray.get, gridAt, List.getD_eq_getElem?_getD, List.getElem?_map,
    List.getElem?_range hk]
  rfl

/-- A byte outside a grid can change without it. -/
theorem gridAt_congr {mem' : Memory}
    (h : ∀ a, p ≤ a → a < p + GRID_WIDTH * GRID_HEIGHT → mem' a = mem a) :
    gridAt mem' p = gridAt mem p := by
  refine CharArray.ext_get fun k hk => ?_
  rw [get_gridAt hk, get_gridAt hk]
  exact h _ (Nat.le_add_right _ _) (Nat.add_lt_add_left hk p)

/-- A byte of a grid that changes is an element that is set. -/
theorem gridAt_set (mem : Memory) (p k : Nat) (b : UInt8) :
    gridAt (Function.update mem (p + k) b) p = (gridAt mem p).set k b := by
  refine CharArray.ext_get fun j hj => ?_
  rw [get_gridAt hj, CharArray.get_set _ _ _ _ hj, get_gridAt hj]
  by_cases hjk : k = j
  · rw [if_pos hjk, hjk, Function.update_self]
  · rw [if_neg hjk, Function.update_of_ne (by omega)]

/-- The second grid is `now`, and outside it the memory is as it was. -/
structure Framed (mem : Memory) (dst : Nat) (mem' : Memory) (now : Grid) : Prop where
  grid : gridAt mem' dst = now
  outside : ∀ a, a < dst ∨ dst + GRID_WIDTH * GRID_HEIGHT ≤ a → mem' a = mem a

/-- What is read through the one pointer is not touched through the other. -/
theorem Framed.source {mem' : Memory} {now : Grid} (h : Framed mem dst mem' now)
    (hsep : Separate src dst) : gridAt mem' src = gridAt mem src := by
  refine gridAt_congr fun a hlow hhigh => h.outside a ?_
  rcases hsep with hsep | hsep
  · exact Or.inl (by omega)
  · exact Or.inr (by omega)

theorem framed_cell {mem' : Memory} {now : Grid} (hsep : Separate src dst) {i j : Nat}
    (hi : i < GRID_HEIGHT) (hj : j < GRID_WIDTH) (h : Framed mem dst mem' now) :
    Framed mem dst (update_cell_at src dst i mem' j) (update_cell (gridAt mem src) i now j) where
  grid := by
    rw [update_cell_at, gridAt_set, h.source hsep, h.grid, update_cell]
  outside a ha := by
    have hlt := index_lt hi hj
    rw [update_cell_at, Function.update_of_ne (by omega)]
    exact h.outside a ha

theorem framed_row {mem' : Memory} {now : Grid} (hsep : Separate src dst) {i : Nat}
    (hi : i < GRID_HEIGHT) (h : Framed mem dst mem' now) :
    Framed mem dst (update_row_at src dst mem' i) (update_row (gridAt mem src) now i) :=
  List.foldl_rel h fun _ hj _ _ hr => framed_cell hsep hi (List.mem_range.mp hj) hr

/-- Through pointers to separate grids, the array written to becomes the next
    grid and nothing else changes. -/
theorem gridAt_update_grid_at (mem : Memory) (hsep : Separate src dst) :
    Framed mem dst (update_grid_at src dst mem) (update_grid (gridAt mem src) (gridAt mem dst)) :=
  List.foldl_rel ⟨rfl, fun _ _ => rfl⟩
    fun _ hi _ _ hr => framed_row hsep (List.mem_range.mp hi) hr

end Pointers

/-- For every memory, and so for all cells in the one grid and all bytes in the
    other: `update_grid` stores 1 for the cells that are alive next and 0 for the
    others, and changes nothing but the second grid. -/
theorem update_grid_life (mem : Memory) (src dst : Nat) (hsep : Separate src dst) :
    (∀ c : Cell, update_grid_at src dst mem (dst + c.index)
      = if NextAlive (gridAt mem src) c then 1 else 0) ∧
    gridAt (update_grid_at src dst mem) src = gridAt mem src ∧
    ∀ a, a < dst ∨ dst + GRID_WIDTH * GRID_HEIGHT ≤ a → update_grid_at src dst mem a = mem a := by
  have hframed := gridAt_update_grid_at mem hsep
  refine ⟨fun c => ?_, hframed.source hsep, hframed.outside⟩
  have hright : Right (gridAt mem src) c.1.val c.2.val _ :=
    right_update_grid (gridAt mem src) (gridAt mem dst) c.1.isLt c.2.isLt
  rw [Right, ← hframed.grid, get_gridAt (index_lt c.1.isLt c.2.isLt)] at hright
  refine hright.trans ?_
  by_cases hnext : NextAlive (gridAt mem src) c
  · rw [if_pos hnext, (is_alive_iff _ c).mpr hnext]
    rfl
  · rw [if_neg hnext, Bool.eq_false_iff.mpr fun h => hnext ((is_alive_iff _ c).mp h)]
    rfl

/-- Three living cells in a row, and an array in which anything might stand. -/
def blinker (a : Nat) : UInt8 :=
  if a < 1225 then if 36 ≤ a ∧ a ≤ 38 then 1 else 0 else 7

/-- The row becomes a column, and nothing else lives around it. -/
theorem update_grid_life_blinker :
    (List.finRange 5).map (fun i => (List.finRange 5).map fun j =>
      update_grid_at 0 1225 blinker (1225 + (i.val * GRID_WIDTH + j.val)))
      = [[0, 0, 1, 0, 0], [0, 0, 1, 0, 0], [0, 0, 1, 0, 0], [0, 0, 0, 0, 0], [0, 0, 0, 0, 0]] := by
  have hrules : ∀ i j : Fin 5,
      is_alive i.val j.val (gridAt blinker 0) = decide (i.val ≤ 2 ∧ j.val = 2) := by
    decide +kernel
  have hcells : ∀ i j : Fin 5, update_grid_at 0 1225 blinker (1225 + (i.val * GRID_WIDTH + j.val))
      = if i.val ≤ 2 ∧ j.val = 2 then 1 else 0 := by
    intro i j
    have hbound : 5 ≤ GRID_HEIGHT ∧ 5 ≤ GRID_WIDTH := by decide
    have h := (update_grid_life blinker 0 1225 (Or.inl (by decide))).1
      (i.castLE hbound.1, j.castLE hbound.2)
    have hnext := is_alive_iff (gridAt blinker 0) (i.castLE hbound.1, j.castLE hbound.2)
    refine h.trans (if_congr (hnext.symm.trans ?_) rfl rfl)
    exact (Bool.eq_iff_iff.mp (hrules i j)).trans decide_eq_true_iff
  simp only [hcells]
  rfl

end Lab8

end OsLabs
