import OsLabs.Core.Memory
import OsLabs.Core.Table

/-!
# The Grid of the Game of Life

`lab8/src/grid.c`: a grid of 35 by 35 cells in an array of `char`, row after
row, and one generation of the game on it.

`is_alive` counts the neighbours of a cell in two nested loops over the offsets
from -1 to 1, leaving out the cell itself and whatever lies outside the grid.
The loops are a walk over `around`, so that a count can also be taken one
neighbour at a time. `update_grid` stores the answer for every cell into a
second array.

`Right` says of one cell of the second array that it holds the answer, and it
is the notion the proofs about the game are made of. A store of a right answer
makes its cell right and spoils no other, whatever cell it goes to, so it does
not matter who makes the stores, in what order, or how often.

## Main definitions

* `Grid`: The array of cells.
* `around`: The offsets, in the order of the two loops.
* `count_at`: What one neighbour adds to the count.
* `rule`: The two tests at the end of `is_alive`.
* `is_alive`, `update_grid`: The functions of the source.
* `Right`: A cell holds the value of the next generation.

## Theorems

* `right_set`: A right store leaves every right cell right.
* `right_store`: It makes its own cell right.
* `right_update_grid`: The double loop makes every cell right.
* `eq_update_grid`: No other array has every cell right.
-/

namespace OsLabs

namespace Lab8

def GRID_HEIGHT : Nat := 35
def GRID_WIDTH : Nat := 35

/-- What `create_grid` allocates. -/
abbrev Grid : Type := CharArray (GRID_WIDTH * GRID_HEIGHT)

/-- The offsets the two loops go through, the outer one's first. -/
def around : List (Int × Int) :=
  [(-1, -1), (-1, 0), (-1, 1), (0, -1), (0, 0), (0, 1), (1, -1), (1, 0), (1, 1)]

/-- The body of the inner loop. -/
def count_at (row col : Int) (grid : Grid) (count : Nat) (d : Int × Int) : Nat :=
  if d.1 = 0 ∧ d.2 = 0 then count
  else
    let r := row + d.1
    let c := col + d.2
    if r < 0 ∨ r ≥ GRID_HEIGHT ∨ c < 0 ∨ c ≥ GRID_WIDTH then count
    else if grid.get (GRID_WIDTH * r + c).toNat ≠ 0 then count + 1
    else count

/-- What becomes of a cell with `count` live neighbours. -/
def rule (cell : UInt8) (count : Nat) : Bool :=
  if cell ≠ 0 then
    if count = 2 ∨ count = 3 then true else false
  else
    if count = 3 then true else false

def is_alive (row col : Int) (grid : Grid) : Bool :=
  rule (grid.get (row * GRID_WIDTH + col).toNat) (around.foldl (count_at row col grid) 0)

/-- One turn of the inner loop of `update_grid`. -/
def update_cell (src : Grid) (i : Nat) (dst : Grid) (j : Nat) : Grid :=
  dst.set (i * GRID_WIDTH + j) (is_alive i j src).toUInt8

/-- One turn of the outer loop. -/
def update_row (src : Grid) (dst : Grid) (i : Nat) : Grid :=
  (List.range GRID_WIDTH).foldl (update_cell src i) dst

def update_grid (src dst : Grid) : Grid :=
  (List.range GRID_HEIGHT).foldl (update_row src) dst

/-- The cell of `dst` holds what the next generation of `src` has there. -/
def Right (src : Grid) (y x : Nat) (dst : Grid) : Prop :=
  dst.get (y * GRID_WIDTH + x) = (is_alive y x src).toUInt8

section Proofs

variable {src dst : Grid} {i j y x : Nat}

theorem index_lt (hy : y < GRID_HEIGHT) (hx : x < GRID_WIDTH) :
    y * GRID_WIDTH + x < GRID_WIDTH * GRID_HEIGHT := by
  unfold GRID_HEIGHT GRID_WIDTH at *
  omega

/-- Different cells have different places in the array. -/
theorem index_inj (hj : j < GRID_WIDTH) (hx : x < GRID_WIDTH)
    (h : i * GRID_WIDTH + j = y * GRID_WIDTH + x) : i = y ∧ j = x := by
  unfold GRID_WIDTH at *
  omega

/-- A right store leaves every right cell right, its own included. -/
theorem right_set (hj : j < GRID_WIDTH) (hy : y < GRID_HEIGHT) (hx : x < GRID_WIDTH)
    (h : Right src y x dst) : Right src y x (update_cell src i dst j) := by
  rw [Right, update_cell, CharArray.get_set _ _ _ _ (index_lt hy hx)]
  by_cases hat : i * GRID_WIDTH + j = y * GRID_WIDTH + x
  · rcases index_inj hj hx hat with ⟨rfl, rfl⟩
    rw [if_pos rfl]
  · rw [if_neg hat]
    exact h

/-- It makes its own cell right. -/
theorem right_store (hi : i < GRID_HEIGHT) (hj : j < GRID_WIDTH) (dst : Grid) :
    Right src i j (update_cell src i dst j) := by
  rw [Right, update_cell, CharArray.get_set _ _ _ _ (index_lt hi hj), if_pos rfl]

theorem right_row (hi : i < GRID_HEIGHT) (hj : j < GRID_WIDTH) (dst : Grid) :
    Right src i j (update_row src dst i) := by
  have hall := foldl_establishes (f := update_cell src i)
    (P := fun j dst => j < GRID_WIDTH → Right src i j dst) (List.range GRID_WIDTH)
    (fun j _ dst hj => right_store hi hj dst)
    (fun k hk j dst h hj => right_set (List.mem_range.mp hk) hi hj (h hj))
  exact hall dst j (List.mem_range.mpr hj) hj

theorem right_set_row (hy : y < GRID_HEIGHT) (hx : x < GRID_WIDTH) (h : Right src y x dst) :
    Right src y x (update_row src dst i) :=
  foldl_preserves_mem (P := Right src y x) (List.range GRID_WIDTH)
    (fun _ hk _ hs => right_set (List.mem_range.mp hk) hy hx hs) dst h

/-- The double loop makes every cell right. -/
theorem right_update_grid (src dst : Grid) (hy : y < GRID_HEIGHT) (hx : x < GRID_WIDTH) :
    Right src y x (update_grid src dst) := by
  have hall := foldl_establishes (f := update_row src)
    (P := fun y dst => y < GRID_HEIGHT → Right src y x dst) (List.range GRID_HEIGHT)
    (fun y _ dst hy => right_row hy hx dst) (fun _ _ _ _ h hy => right_set_row hy hx (h hy))
  exact hall dst y (List.mem_range.mpr hy) hy

/-- An array with every cell right is what `update_grid` makes of any other. -/
theorem eq_update_grid (old : Grid)
    (h : ∀ y x, y < GRID_HEIGHT → x < GRID_WIDTH → Right src y x dst) :
    dst = update_grid src old := by
  refine CharArray.ext_get fun k hk => ?_
  -- The place of a cell tells its row and column.
  have hy : k / GRID_WIDTH < GRID_HEIGHT := Nat.div_lt_of_lt_mul hk
  have hx : k % GRID_WIDTH < GRID_WIDTH := Nat.mod_lt k (by decide)
  have hplace : k / GRID_WIDTH * GRID_WIDTH + k % GRID_WIDTH = k := by
    rw [Nat.mul_comm]
    exact Nat.div_add_mod k GRID_WIDTH
  have hdst := h _ _ hy hx
  have hupdated := right_update_grid src old hy hx
  rw [Right, hplace] at hdst hupdated
  rw [hdst, hupdated]

end Proofs

end Lab8

end OsLabs
