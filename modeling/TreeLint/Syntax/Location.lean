/-
Lines and columns.

A file is located by its line starts: the offsets at which its lines begin.  The
starts of a text are zero and the offset after each line feed.  An offset lies on
the last line that does not start after it, so `countUpTo` finds its line by
halving; for ascending starts it is the number of starts up to the offset.
-/
namespace TreeLint

/-- A line and a column, both counted from one. -/
structure Location where
  /-- The line. -/
  line : Int
  /-- The column. -/
  column : Int
deriving DecidableEq, Repr

namespace Location

/-- The offsets after the line feeds of a text that begins at an offset. -/
def startsAfter : Nat → List Char → List Int
  | _, [] => []
  | i, c :: rest => if c = '\n' then ((i + 1 : Nat) : Int) :: startsAfter (i + 1) rest
      else startsAfter (i + 1) rest

/-- The line starts of a text. -/
def startsOf (text : String) : Array Int :=
  (0 :: startsAfter 0 text.toList).toArray

/-- Halves the range of places from `lo` to `hi` until it is empty: places whose start is not above
the offset are left behind, the others are cut off. -/
def halve (starts : Array Int) (offset : Int) (lo hi : Nat) : Nat :=
  if lo < hi then
    let mid := (lo + hi) / 2
    if offset < starts.getD mid 0 then halve starts offset lo mid
    else halve starts offset (mid + 1) hi
  else lo
termination_by hi - lo

/-- The number of line starts up to an offset. -/
def countUpTo (starts : Array Int) (offset : Int) : Nat :=
  halve starts offset 0 starts.size

/-- The location of an offset; an offset before the text counts as its beginning.  An offset before
the first line start lies on line zero, and its column is counted from the last start.  Without
any line start there is no location. -/
def ofOffset? (starts : Array Int) (offset : Int) : Option Location :=
  let p := max offset 0
  match countUpTo starts p with
  | 0 => starts.back?.map (fun s => ⟨0, p - s + 1⟩)
  | k + 1 => starts[k]?.map (fun s => ⟨(k : Int) + 1, p - s + 1⟩)

theorem halve_le (starts : Array Int) (offset : Int) {lo hi : Nat} (h : lo ≤ hi) :
    halve starts offset lo hi ≤ hi := by
  fun_induction halve starts offset lo hi with
  | case1 lo hi hlt mid hcmp ih => exact Nat.le_trans (ih (by omega)) (by omega)
  | case2 lo hi hlt mid hcmp ih => exact ih (by omega)
  | case3 lo hi hlt => exact h

theorem countUpTo_le_size (starts : Array Int) (offset : Int) :
    countUpTo starts offset ≤ starts.size :=
  halve_le starts offset (Nat.zero_le _)

/-- Every offset has a location, unless there are no line starts. -/
theorem ofOffset?_isSome {starts : Array Int} (h : starts.size ≠ 0) (offset : Int) :
    (ofOffset? starts offset).isSome := by
  have hle := countUpTo_le_size starts (max offset 0)
  simp only [ofOffset?]
  split
  · rw [Array.back?_eq_getElem?, Option.isSome_map, Array.getElem?_eq_getElem (by omega)]
    rfl
  · next k hk =>
    rw [Option.isSome_map, Array.getElem?_eq_getElem (by omega)]
    rfl

end Location

end TreeLint
