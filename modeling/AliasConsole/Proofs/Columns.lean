import AliasConsole.Escape
import AliasConsole.Proofs.Escape.Stripping
import AliasConsole.Proofs.Text.Pieces
import Mathlib.Algebra.BigOperators.Group.Finset.Basic
import Mathlib.Data.List.DropRight
import Mathlib.Order.Bounds.Defs

/-!
# Aligned columns

A column is as wide as its widest cell, and a cell is filled up on its right to the
width of its column.  What stands before a cell ends in blanks, and no sequence has a
blank in it, so the widths of what stands one behind the other add up, whatever broken
sequences the cells begin and end with.  Hence a cell starts where its column starts,
the same for all rows.
-/

namespace AliasConsole

/-! ## Blanks between texts -/

section Spaces

variable {n : ℕ}

theorem stripEscapes_spaces_append (n : ℕ) (t : Text) :
    stripEscapes (Text.spaces n ++ t) = Text.spaces n ++ stripEscapes t := by
  induction n with
  | zero => rfl
  | succ n ih =>
      have hblank : ¬BeginsSequence (' ' :: (Text.spaces n ++ t)) :=
        not_beginsSequence_of_ne (by decide)
      rw [Text.spaces, List.replicate_succ, List.cons_append, ← Text.spaces,
        stripEscapes_cons hblank, ih, List.cons_append]

theorem stripEscapes_append_spaces_append (hn : 0 < n) (front back : Text) :
    stripEscapes (front ++ Text.spaces n ++ back) =
      stripEscapes front ++ Text.spaces n ++ stripEscapes back := by
  obtain ⟨m, rfl⟩ := Nat.exists_eq_add_of_lt hn
  have hspaces := stripEscapes_spaces_append (0 + m + 1) back
  rw [Text.spaces, List.replicate_succ] at hspaces ⊢
  rw [List.append_assoc, List.append_assoc, List.cons_append, List.cons_append,
    stripEscapes_append_cons (by decide)]
  exact congrArg (stripEscapes front ++ ·) hspaces

theorem visibleWidth_append_spaces (t : Text) (n : ℕ) :
    visibleWidth (t ++ Text.spaces n) = visibleWidth t + n := by
  rcases Nat.eq_zero_or_pos n with rfl | hn
  · rw [Text.spaces, List.replicate_zero, List.append_nil, Nat.add_zero]
  · have hstripped := stripEscapes_append_spaces_append hn t []
    rw [List.append_nil] at hstripped
    rw [visibleWidth, hstripped, visibleWidth]
    simp [Text.spaces, stripEscapes, stripFrom]

end Spaces

namespace Columns

variable {rows : List (List Text)} {row : List Text} {cell : Text} {k : ℕ}

/-! ## The width of a column -/

/-- The cells of a column, from top to bottom.  A row that is too short has none. -/
def column (rows : List (List Text)) (k : ℕ) : List Text := rows.filterMap fun row => row[k]?

/-- The largest visible width of the cells of a column. -/
def columnWidth (rows : List (List Text)) (k : ℕ) : ℕ :=
  ((column rows k).map visibleWidth).max?.getD 0

theorem column_cons (row : List Text) (rows : List (List Text)) (k : ℕ) :
    column (row :: rows) k = row[k]?.toList ++ column rows k := by
  cases h : row[k]? <;> simp [column, h]

theorem mem_column (hrow : row ∈ rows) (hcell : row[k]? = some cell) : cell ∈ column rows k :=
  List.mem_filterMap.mpr ⟨row, hrow, hcell⟩

/-- A row makes a column at least as wide as its own cell there, and opens the columns
that the rows before it do not reach. -/
theorem getElem?_widen (widths : List ℕ) (row : List Text) (k : ℕ) :
    (widen widths row)[k]? = Option.merge max widths[k]? (row[k]?.map visibleWidth) := by
  fun_induction widen widths row generalizing k with
  | case1 widths => simp
  | case2 cell rest ih => cases k <;> simp [ih]
  | case3 width widths cell rest ih => cases k <;> simp [ih]

theorem getElem?_foldl_widen (widths : List ℕ) (rows : List (List Text)) (k : ℕ) :
    (rows.foldl widen widths)[k]? =
      Option.merge max widths[k]? ((column rows k).map visibleWidth).max? := by
  induction rows generalizing widths with
  | nil => simp [column]
  | cons row rest ih =>
      have hcolumn : ((column (row :: rest) k).map visibleWidth).max? =
          Option.merge max (row[k]?.map visibleWidth)
            ((column rest k).map visibleWidth).max? := by
        rw [column_cons]
        cases row[k]? with
        | none => exact Option.merge_none_left.symm
        | some cell =>
            rw [Option.toList_some, List.singleton_append, List.map_cons, List.max?_cons]
            cases ((column rest k).map visibleWidth).max? <;> rfl
      rw [List.foldl_cons, ih, getElem?_widen, hcolumn]
      exact (inferInstance : Std.Associative (Option.merge (max : ℕ → ℕ → ℕ))).assoc _ _ _

theorem getElem?_widths (rows : List (List Text)) (k : ℕ) :
    (widths rows)[k]? = ((column rows k).map visibleWidth).max? := by
  rw [widths, getElem?_foldl_widen, List.getElem?_nil, Option.merge_none_left]

/-- A column with a cell has a width, which is the largest of its cells' widths. -/
theorem getElem?_widths_of_mem (h : cell ∈ column rows k) :
    (widths rows)[k]? = some (columnWidth rows k) ∧
      IsGreatest {width | ∃ cell ∈ column rows k, visibleWidth cell = width}
        (columnWidth rows k) := by
  obtain ⟨width, hwidth⟩ := Option.isSome_iff_exists.mp
    (List.isSome_max?_of_mem (List.mem_map_of_mem (f := visibleWidth) h))
  have hcolumn : columnWidth rows k = width := by rw [columnWidth, hwidth, Option.getD_some]
  obtain ⟨hmem, hle⟩ := List.max?_eq_some_iff.mp hwidth
  rw [getElem?_widths, hcolumn]
  refine ⟨hwidth, List.mem_map.mp hmem, ?_⟩
  rintro _ ⟨other, hother, rfl⟩
  exact hle _ (List.mem_map_of_mem hother)

/-! ## Where a cell starts -/

/-- What stands before a cell of a row: the indent, and every earlier cell, filled up to
the width of its column, with the gap behind it. -/
def leading (indent gap : ℕ) (columns : List ℕ) (row : List Text) (j : ℕ) : Text :=
  Text.spaces indent ++
    ((List.zipWith padded columns row).take j).flatMap fun cell => cell ++ Text.spaces gap

variable {indent gap j width : ℕ} {columns : List ℕ}

theorem getElem?_zipWith_padded (hwidth : columns[j]? = some width) (hcell : row[j]? = some cell) :
    (List.zipWith padded columns row)[j]? = some (padded width cell) := by
  rw [List.getElem?_zipWith, hwidth, hcell]

theorem leading_zero (indent gap : ℕ) (columns : List ℕ) (row : List Text) :
    leading indent gap columns row 0 = Text.spaces indent :=
  List.append_nil _

theorem leading_succ (indent gap : ℕ) (hwidth : columns[j]? = some width)
    (hcell : row[j]? = some cell) :
    leading indent gap columns row (j + 1) =
      leading indent gap columns row j ++ cell ++ Text.spaces (width - visibleWidth cell) ++
        Text.spaces gap := by
  rw [leading, List.take_add_one, getElem?_zipWith_padded hwidth hcell, Option.toList_some,
    List.flatMap_append, List.flatMap_singleton, ← List.append_assoc, ← leading, padded]
  simp only [List.append_assoc]

/-- A row goes on behind a cell with the blanks that fill it up. -/
theorem exists_paddedRow_eq (indent gap : ℕ) (hwidth : columns[j]? = some width)
    (hcell : row[j]? = some cell) :
    ∃ after, paddedRow indent gap columns row = leading indent gap columns row j ++ cell ++
      Text.spaces (width - visibleWidth cell) ++ after := by
  have hpart := getElem?_zipWith_padded hwidth hcell
  obtain ⟨hlength, -⟩ := List.getElem?_eq_some_iff.mp hpart
  have hdrop := List.drop_eq_getElem?_toList_append (l := List.zipWith padded columns row) (i := j)
  rw [hpart, Option.toList_some, List.singleton_append] at hdrop
  obtain ⟨after, hafter⟩ := exists_joined_cons (Text.spaces gap) (padded width cell)
    ((List.zipWith padded columns row).drop (j + 1))
  refine ⟨after, ?_⟩
  rw [paddedRow, joined_eq_flatMap_append (Text.spaces gap) hlength, hdrop, hafter,
    ← List.append_assoc, ← leading, padded]
  simp only [List.append_assoc]

theorem stripEscapes_leading_append (hgap : 0 < gap) (hlength : j ≤ row.length)
    (hcolumns : row.length ≤ columns.length) (t : Text) :
    stripEscapes (leading indent gap columns row j ++ t) =
      stripEscapes (leading indent gap columns row j) ++ stripEscapes t := by
  cases j with
  | zero =>
      have hspaces := stripEscapes_spaces_append indent []
      rw [List.append_nil] at hspaces
      rw [leading_zero, stripEscapes_spaces_append, hspaces]
      simp [stripEscapes, stripFrom]
  | succ j =>
      have hwidth : columns[j]? = some columns[j] := List.getElem?_eq_getElem (by omega)
      have hcell : row[j]? = some row[j] := List.getElem?_eq_getElem (by omega)
      have hclosed := stripEscapes_append_spaces_append hgap
        (leading indent gap columns row j ++ row[j] ++
          Text.spaces (columns[j] - visibleWidth row[j]))
      have hnone := hclosed []
      rw [List.append_nil] at hnone
      rw [leading_succ indent gap hwidth hcell, hclosed, hnone]
      simp [stripEscapes, stripFrom]

/-- A cell starts behind the indent and, for every earlier column, its width and the gap. -/
theorem visibleWidth_leading (hgap : 0 < gap) (hrow : row ∈ rows) (hlength : j ≤ row.length)
    (hcolumns : row.length ≤ (widths rows).length) :
    visibleWidth (leading indent gap (widths rows) row j) =
      indent + ∑ k ∈ Finset.range j, (columnWidth rows k + gap) := by
  induction j with
  | zero =>
      have hspaces := visibleWidth_append_spaces [] indent
      rw [List.nil_append] at hspaces
      rw [leading_zero, hspaces, Finset.sum_range_zero, Nat.add_zero]
      exact Nat.zero_add indent
  | succ j ih =>
      have hcell : row[j]? = some row[j] := List.getElem?_eq_getElem (by omega)
      obtain ⟨hwidth, -, hgreatest⟩ := getElem?_widths_of_mem (mem_column hrow hcell)
      have hle : visibleWidth row[j] ≤ columnWidth rows j :=
        hgreatest ⟨row[j], mem_column hrow hcell, rfl⟩
      have hfront : visibleWidth (leading indent gap (widths rows) row j ++ row[j]) =
          visibleWidth (leading indent gap (widths rows) row j) +
            visibleWidth row[j] := by
        rw [visibleWidth, stripEscapes_leading_append hgap (by omega) hcolumns,
          List.length_append]
        rfl
      rw [leading_succ indent gap hwidth hcell, visibleWidth_append_spaces,
        visibleWidth_append_spaces, hfront, ih (by omega), Finset.sum_range_succ]
      omega

/-! ## The layout -/

theorem notMem_spaces {c : Char} (hc : c ≠ ' ') (n : ℕ) : c ∉ Text.spaces n :=
  fun hmem => hc (List.eq_of_mem_replicate hmem)

theorem notMem_paddedRow {c : Char} (hc : c ≠ ' ') (hrow : ∀ cell ∈ row, c ∉ cell)
    (indent gap : ℕ) (columns : List ℕ) : c ∉ paddedRow indent gap columns row := by
  rw [paddedRow]
  refine List.not_mem_append (notMem_spaces hc indent)
    (notMem_joined (notMem_spaces hc gap) fun part hpart => ?_)
  obtain ⟨i, hi, rfl⟩ := List.mem_iff_getElem.mp hpart
  rw [List.getElem_zipWith]
  exact List.not_mem_append (hrow _ (List.getElem_mem _)) (notMem_spaces hc _)

theorem length_le_length_widths (hrow : row ∈ rows) : row.length ≤ (widths rows).length := by
  by_contra hlt
  have hcell : row[(widths rows).length]? = some row[(widths rows).length] :=
    List.getElem?_eq_getElem (by omega)
  obtain ⟨hwidth, -⟩ := getElem?_widths_of_mem (mem_column hrow hcell)
  rw [List.getElem?_eq_none (Nat.le_refl _)] at hwidth
  cases hwidth

/-- The cell of a row stands in its column, whole: the width of the column is at hand, it
is the largest one of the cells in it, the cell is filled up to it, and what stands before
the cell has the indent and the widths and gaps of the columns before. -/
structure IsPlaced (indent gap : ℕ) (rows : List (List Text)) (row : List Text) (j : ℕ)
    (cell : Text) : Prop where
  width_eq : (widths rows)[j]? = some (columnWidth rows j)
  isGreatest : IsGreatest {width | ∃ cell ∈ column rows j, visibleWidth cell = width}
    (columnWidth rows j)
  fits : visibleWidth cell ≤ columnWidth rows j
  exists_after : ∃ after, paddedRow indent gap (widths rows) row =
    leading indent gap (widths rows) row j ++ cell ++
      Text.spaces (columnWidth rows j - visibleWidth cell) ++ after
  start_eq : visibleWidth (leading indent gap (widths rows) row j) =
    indent + ∑ k ∈ Finset.range j, (columnWidth rows k + gap)

theorem isPlaced (hgap : 0 < gap) (indent : ℕ) (hrow : row ∈ rows) (hcell : row[j]? = some cell) :
    IsPlaced indent gap rows row j cell := by
  have hmem := mem_column hrow hcell
  obtain ⟨hwidth, hgreatest⟩ := getElem?_widths_of_mem hmem
  obtain ⟨hlength, -⟩ := List.getElem?_eq_some_iff.mp hcell
  exact
    { width_eq := hwidth
      isGreatest := hgreatest
      fits := hgreatest.2 ⟨cell, hmem, rfl⟩
      exists_after := exists_paddedRow_eq indent gap hwidth hcell
      start_eq := visibleWidth_leading hgap hrow (Nat.le_of_lt hlength)
        (length_le_length_widths hrow) }

/-- The layout has one line for every row: the filled up row without the blanks at its
end, in which, before these are dropped, every cell stands in its column. -/
theorem layout_aligns {gap : ℕ} (hgap : 1 ≤ gap) (indent : ℕ) {rows : List (List Text)}
    (hrows : ∀ row ∈ rows, ∀ cell ∈ row, '\n' ∉ cell) :
    ∃ lines : List Text, layout indent gap rows = Text.joined ['\n'] lines ∧
      (rows ≠ [] → Text.pieces '\n' (layout indent gap rows) = lines) ∧
      lines.length = rows.length ∧
      ∀ (i : ℕ) (row : List Text), rows[i]? = some row →
        lines[i]? = some (Text.trimEnd (paddedRow indent gap (widths rows) row)) ∧
        ∀ (j : ℕ) (cell : Text), row[j]? = some cell → IsPlaced indent gap rows row j cell := by
  refine ⟨rows.map fun row => Text.trimEnd (paddedRow indent gap (widths rows) row), rfl,
    fun hne => ?_, List.length_map _, fun i row hrow => ?_⟩
  · refine pieces_joined (by simpa using hne) (List.forall_mem_map.mpr fun row hrow hmem => ?_)
    have htrimmed : Text.trimEnd (paddedRow indent gap (widths rows) row) <+:
        paddedRow indent gap (widths rows) row := List.rdropWhile_prefix isBlank _
    exact notMem_paddedRow (by decide) (hrows row hrow) indent gap _ (htrimmed.subset hmem)
  · refine ⟨by rw [List.getElem?_map, hrow, Option.map_some], fun j cell hcell => ?_⟩
    exact isPlaced hgap indent (List.mem_of_getElem? hrow) hcell

/-- Rows with a styled cell, a cell that breaks off within a sequence, and a row whose
first two cells would be one sequence without the blanks between them. -/
def broken : List (List Text) :=
  [[Style.red.wrap "ab".toList, "x".toList], ["abcd".toList, [escapeChar, '[']],
    [[escapeChar, '[', '3'], "m".toList, "last".toList]]

theorem layout_aligns_broken :
    1 ≤ 2 ∧ (∀ row ∈ broken, ∀ cell ∈ row, '\n' ∉ cell) ∧
      broken[2]? = some [[escapeChar, '[', '3'], "m".toList, "last".toList] ∧
      visibleWidth (leading 1 2 (widths broken)
        [[escapeChar, '[', '3'], "m".toList, "last".toList] 2) = 1 + ((4 + 2) + (2 + 2)) := by
  have hgap : 1 ≤ 2 := by decide
  have hrows : ∀ row ∈ broken, ∀ cell ∈ row, '\n' ∉ cell := by decide
  refine ⟨hgap, hrows, rfl, ?_⟩
  obtain ⟨lines, -, -, -, hlines⟩ := layout_aligns hgap 1 hrows
  obtain ⟨-, hcells⟩ := hlines 2 _ rfl
  rw [(hcells 2 "last".toList rfl).start_eq]
  rfl

end Columns

end AliasConsole
