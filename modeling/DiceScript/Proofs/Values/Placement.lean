import DiceScript.Proofs.Values.Boxes

/-!
# Where the characters of a box go

A box has a cell in every row and column, blank where it has no character. A layout operator is known by the size of
the box it makes and by each of its cells: the cells of the one box and of the other, each moved as a block. A cell does
not tell a blank of the text from no character at all, so that every character is kept is said apart.
-/

namespace DiceScript

namespace Box

def char? (b : Box) (i j : Nat) : Option Char :=
  b[i]?.bind (·[j]?)

def cell (b : Box) (i j : Nat) : Char :=
  (b.char? i j).getD ' '

def shifted (b : Box) (columns i j : Nat) : Char :=
  if j < columns then ' ' else b.cell i (j - columns)

/-- Every character of one box is in another, the same way down and to the right from where it was. -/
def Holds (whole part : Box) (down right : Nat) : Prop :=
  ∀ i j c, part.char? i j = some c → whole.char? (down + i) (right + j) = some c

/-- A box that shows two boxes side by side, their first rows in its first row. -/
structure ShowsBeside (whole left right : Box) : Prop where
  height : whole.height = max left.height right.height
  width : whole.width = left.width + right.width
  cell : ∀ i j, whole.cell i j = if j < left.width then left.cell i j else right.cell i (j - left.width)
  keepsLeft : whole.Holds left 0 0
  keepsRight : whole.Holds right 0 left.width

/-- A box that shows one box above another, each moved to the right by a part of the columns that it leaves free. -/
structure ShowsStacked (indent : Nat → Nat) (whole top bottom : Box) : Prop where
  height : whole.height = top.height + bottom.height
  width : whole.width = max top.width bottom.width
  cell : ∀ i j, whole.cell i j =
    if i < top.height then top.shifted (indent (whole.width - top.width)) i j
    else bottom.shifted (indent (whole.width - bottom.width)) (i - top.height) j
  keepsTop : whole.Holds top 0 (indent (whole.width - top.width))
  keepsBottom : whole.Holds bottom top.height (indent (whole.width - bottom.width))

variable {a b : Box} {row : List Char} {i j : Nat}

/-! Cells of rows with blanks around them. -/

theorem cell_of_row (h : b[i]? = some row) : b.cell i j = row[j]?.getD ' ' := by
  rw [cell, char?, h, Option.bind_some]

theorem cell_of_no_row (h : b[i]? = none) : b.cell i j = ' ' := by
  rw [cell, char?, h, Option.bind_none, Option.getD_none]

theorem cell_eq_getD (b : Box) (i j : Nat) : b.cell i j = (b[i]?.getD [])[j]?.getD ' ' := by
  cases h : b[i]? with
  | none => exact cell_of_no_row h
  | some row => exact cell_of_row h

@[simp] theorem blanks_cell (n j : Nat) : (blanks n)[j]?.getD ' ' = ' ' := by
  rw [blanks, List.getElem?_replicate]
  split <;> rfl

theorem append_blanks_cell (row : List Char) (n j : Nat) : (row ++ blanks n)[j]?.getD ' ' = row[j]?.getD ' ' := by
  rw [List.getElem?_append]
  split
  · rfl
  · next h => rw [blanks_cell, List.getElem?_eq_none (Nat.not_lt.1 h), Option.getD_none]

theorem blanks_append_cell (n : Nat) (row : List Char) (j : Nat) :
    (blanks n ++ row)[j]?.getD ' ' = if j < n then ' ' else row[j - n]?.getD ' ' := by
  rw [List.getElem?_append, length_blanks]
  split
  · exact blanks_cell n j
  · rfl

theorem fill_cell (w : Nat) (row : List Char) (j : Nat) : (fill w row)[j]?.getD ' ' = row[j]?.getD ' ' :=
  append_blanks_cell row _ j

theorem pad_cell (alignment : Alignment) (own target : Nat) (row : List Char) (j : Nat) :
    (pad alignment own target row)[j]?.getD ' ' =
      if j < alignment.indent (target - own) then ' '
      else row[j - alignment.indent (target - own)]?.getD ' ' := by
  rw [pad, append_blanks_cell, blanks_append_cell, fill_cell]

/-! Cells of boxes. -/

theorem shifted_zero : b.shifted 0 i j = b.cell i j := rfl

theorem cell_append (a b : Box) (i j : Nat) :
    cell (a ++ b) i j = if i < a.length then a.cell i j else b.cell (i - a.length) j := by
  simp only [cell_eq_getD, List.getElem?_append]
  split <;> rfl

theorem cell_widenTo (alignment : Alignment) (target : Nat) (b : Box) (i j : Nat) :
    (b.widenTo alignment target).cell i j = b.shifted (alignment.indent (target - b.width)) i j := by
  by_cases hlt : b.width < target
  · rw [widenTo_of_lt hlt, shifted]
    cases hrow : b[i]? with
    | none => rw [cell_of_no_row (by rw [List.getElem?_map, hrow]; rfl), cell_of_no_row hrow, ite_self]
    | some row => rw [cell_of_row (by rw [List.getElem?_map, hrow]; rfl), pad_cell, cell_of_row hrow]
  · rw [widenTo, if_neg hlt, Nat.sub_eq_zero_of_le (Nat.not_lt.1 hlt), Alignment.indent_zero, shifted_zero]

theorem cell_beside (a b : Box) (i j : Nat) :
    (a.beside b).cell i j = if j < a.width then a.cell i j else b.cell i (j - a.width) := by
  have hlength := length_fill (length_getD_le_width a i)
  by_cases hi : i < max a.length b.length
  · have hrow : (a.beside b)[i]? = _ := (getElem?_beside a b i).trans (if_pos hi)
    rw [cell_of_row hrow, List.getElem?_append, hlength]
    split
    · rw [fill_cell, ← cell_eq_getD]
    · cases hb : b[i]? with
      | none => rw [Option.getD_none, blanks_cell, cell_of_no_row hb]
      | some row => rw [Option.getD_some, cell_of_row hb]
  · have hrow : (a.beside b)[i]? = none := (getElem?_beside a b i).trans (if_neg hi)
    rw [cell_of_no_row hrow, cell_of_no_row (List.getElem?_eq_none (by omega)),
      cell_of_no_row (List.getElem?_eq_none (by omega)), ite_self]

/-! Characters of boxes. -/

theorem char?_eq_some {c : Char} : b.char? i j = some c ↔ ∃ row, b[i]? = some row ∧ row[j]? = some c :=
  Option.bind_eq_some_iff

theorem Holds.refl (b : Box) : b.Holds b 0 0 := by
  intro i j c h
  rwa [Nat.zero_add, Nat.zero_add]

theorem Holds.trans {whole middle part : Box} {down right down' right' : Nat} (h : whole.Holds middle down right)
    (h' : middle.Holds part down' right') : whole.Holds part (down + down') (right + right') := by
  intro i j c hc
  rw [Nat.add_assoc, Nat.add_assoc]
  exact h _ _ c (h' i j c hc)

/-- To hold a box it is enough to have each of its rows within a row. -/
theorem holds_of_rows {whole part : Box} {down right : Nat}
    (h : ∀ i row, part[i]? = some row → ∃ before after : List Char, before.length = right ∧
      whole[down + i]? = some (before ++ row ++ after)) : whole.Holds part down right := by
  intro i j c hc
  obtain ⟨row, hrow, hj⟩ := char?_eq_some.1 hc
  obtain ⟨before, after, rfl, hwhole⟩ := h i row hrow
  have hlt : j < row.length := (List.getElem?_eq_some_iff.1 hj).1
  refine char?_eq_some.2 ⟨_, hwhole, ?_⟩
  rw [List.append_assoc, List.getElem?_append_right (Nat.le_add_right _ _), Nat.add_sub_cancel_left,
    List.getElem?_append_left hlt, hj]

theorem holds_append_left (a b : Box) : Holds (a ++ b) a 0 0 := by
  refine holds_of_rows fun i row hrow => ⟨[], [], rfl, ?_⟩
  have hlt : i < a.length := (List.getElem?_eq_some_iff.1 hrow).1
  rw [Nat.zero_add, List.getElem?_append_left hlt, hrow, List.nil_append, List.append_nil]

theorem holds_append_right (a b : Box) : Holds (a ++ b) b a.length 0 := by
  refine holds_of_rows fun i row hrow => ⟨[], [], rfl, ?_⟩
  rw [List.getElem?_append_right (Nat.le_add_right _ _), Nat.add_sub_cancel_left, hrow, List.nil_append,
    List.append_nil]

theorem holds_widenTo (alignment : Alignment) (target : Nat) (b : Box) :
    (b.widenTo alignment target).Holds b 0 (alignment.indent (target - b.width)) := by
  by_cases hlt : b.width < target
  · refine holds_of_rows fun i row hrow => ?_
    refine ⟨blanks (alignment.indent (target - b.width)), blanks (b.width - row.length) ++
      blanks (target - b.width - alignment.indent (target - b.width)), length_blanks _, ?_⟩
    rw [widenTo_of_lt hlt, Nat.zero_add, List.getElem?_map, hrow, Option.map_some, pad, fill]
    simp only [List.append_assoc]
  · rw [widenTo, if_neg hlt, Nat.sub_eq_zero_of_le (Nat.not_lt.1 hlt), Alignment.indent_zero]
    exact Holds.refl b

theorem holds_beside_left (a b : Box) : (a.beside b).Holds a 0 0 := by
  refine holds_of_rows fun i row hrow => ?_
  have hlt : i < a.length := (List.getElem?_eq_some_iff.1 hrow).1
  refine ⟨[], blanks (a.width - row.length) ++ b[i]?.getD (blanks b.width), rfl, ?_⟩
  rw [Nat.zero_add, getElem?_beside, if_pos (by omega), hrow, Option.getD_some, fill, List.append_assoc,
    List.nil_append]

theorem holds_beside_right (a b : Box) : (a.beside b).Holds b 0 a.width := by
  refine holds_of_rows fun i row hrow => ?_
  have hlt : i < b.length := (List.getElem?_eq_some_iff.1 hrow).1
  refine ⟨fill a.width (a[i]?.getD []), [], length_fill (length_getD_le_width a i), ?_⟩
  rw [Nat.zero_add, getElem?_beside, if_pos (by omega), hrow, Option.getD_some, List.append_nil]

theorem holds_stack_top (alignment : Alignment) (a b : Box) :
    (a.stack alignment b).Holds a 0 (alignment.indent (max a.width b.width - a.width)) := by
  have hblock : (a.stack alignment b).Holds (a.widenTo alignment (max a.width b.width)) 0 0 :=
    holds_append_left _ _
  have h := hblock.trans (holds_widenTo alignment _ a)
  rwa [Nat.zero_add, Nat.zero_add] at h

theorem holds_stack_bottom (alignment : Alignment) (a b : Box) :
    (a.stack alignment b).Holds b a.height (alignment.indent (max a.width b.width - b.width)) := by
  have hblock : (a.stack alignment b).Holds (b.widenTo alignment (max a.width b.width))
      (a.widenTo alignment (max a.width b.width)).length 0 := holds_append_right _ _
  have h := hblock.trans (holds_widenTo alignment _ b)
  rw [length_widenTo, Nat.add_zero, Nat.zero_add] at h
  exact h

/-! Boxes side by side and stacked. -/

theorem showsBeside_beside (hb : b ≠ []) : ShowsBeside (a.beside b) a b where
  height := length_beside a b
  width := width_beside hb
  cell := cell_beside a b
  keepsLeft := holds_beside_left a b
  keepsRight := holds_beside_right a b

theorem showsStacked_stack (alignment : Alignment) (ha : a ≠ []) (hb : b ≠ []) :
    ShowsStacked alignment.indent (a.stack alignment b) a b where
  height := length_stack a b
  width := width_stack ha hb
  cell i j := by
    rw [width_stack ha hb, stack, cell_append, length_widenTo, cell_widenTo, cell_widenTo]
    rfl
  keepsTop := width_stack ha hb ▸ holds_stack_top alignment a b
  keepsBottom := width_stack ha hb ▸ holds_stack_bottom alignment a b

end Box

/-- Each layout operator makes a text that shows the one text beside or above the other, with all their characters, each
text moved as a block. Texts above one another are moved by none, all or half of the columns that they leave free. -/
theorem LayoutOp.places_texts (a b : String) :
    Box.ShowsBeside (.ofText (LayoutOp.beside.apply a b)) (.ofText a) (.ofText b) ∧
    Box.ShowsStacked (fun _ => 0) (.ofText (LayoutOp.aboveLeft.apply a b)) (.ofText a) (.ofText b) ∧
    Box.ShowsStacked (fun free => free) (.ofText (LayoutOp.aboveRight.apply a b)) (.ofText a) (.ofText b) ∧
    Box.ShowsStacked (fun free => free / 2) (.ofText (LayoutOp.aboveCentre.apply a b)) (.ofText a) (.ofText b) := by
  have ha := (Box.isLines_ofText a).nonempty
  have hb := (Box.isLines_ofText b).nonempty
  simp only [LayoutOp.ofText_apply]
  exact ⟨Box.showsBeside_beside hb, Box.showsStacked_stack .left ha hb, Box.showsStacked_stack .right ha hb,
    Box.showsStacked_stack .centre ha hb⟩

example : LayoutOp.aboveCentre.apply "x\ny" "1234" = " x  \n y  \n1234" := by decide

end DiceScript
