import DiceScript.Proofs.Values.Boxes

/-!
# Layouts of three texts

Three texts may be laid out from the left or from the right. Side by side, each row is the same three pieces either way.
Above one another, a box is brought to the common width at once or in two steps, and the two steps leave it where the
one does if the blanks on its left add up. Half of an odd number of blanks is rounded, so texts above one another in the
middle are to have widths that are all odd or all even.
-/

namespace DiceScript

namespace Box

variable {a b c : Box} {row : List Char} {alignment : Alignment}

/-! Boxes above one another. -/

/-- A box of one width can be aligned with one of the other without rounding. -/
def Alignment.Suits (alignment : Alignment) (u v : Nat) : Prop :=
  alignment = .centre → u % 2 = v % 2

theorem Alignment.Suits.symm {u v : Nat} (h : alignment.Suits u v) : alignment.Suits v u :=
  fun hcentre => (h hcentre).symm

theorem Alignment.Suits.max {u v : Nat} (h : alignment.Suits u v) : alignment.Suits u (max u v) := by
  intro hcentre
  have hmod := h hcentre
  rcases Nat.le_total u v with hle | hle
  · rw [Nat.max_eq_right hle, hmod]
  · rw [Nat.max_eq_left hle]

theorem Alignment.Suits.indent_add {u v w : Nat} (h : alignment.Suits u v) (huv : u ≤ v) (hvw : v ≤ w) :
    alignment.indent (v - u) + alignment.indent (w - v) = alignment.indent (w - u) := by
  cases alignment with
  | left => rfl
  | right => simp only [Alignment.indent]; omega
  | centre =>
    have hmod := h rfl
    simp only [Alignment.indent]
    omega

theorem pad_pad {u v w : Nat} (h : alignment.Suits u v) (hrow : row.length ≤ u) (huv : u ≤ v) (hvw : v ≤ w) :
    pad alignment v w (pad alignment u v row) = pad alignment u w row := by
  have hadd := h.indent_add huv hvw
  have hright : w - u - alignment.indent (w - u) =
      v - u - alignment.indent (v - u) + (w - v - alignment.indent (w - v)) := by
    have hfirst := alignment.indent_le (v - u)
    have hsecond := alignment.indent_le (w - v)
    omega
  have hfull : fill v (pad alignment u v row) = pad alignment u v row :=
    fill_eq_self (Nat.le_of_eq (length_pad alignment hrow huv).symm)
  calc pad alignment v w (pad alignment u v row)
      = blanks (alignment.indent (w - v)) ++ pad alignment u v row ++ blanks (w - v - alignment.indent (w - v)) := by
        rw [pad, hfull]
    _ = blanks (alignment.indent (w - v) + alignment.indent (v - u)) ++ fill u row ++
          blanks (v - u - alignment.indent (v - u) + (w - v - alignment.indent (w - v))) := by
        simp only [pad, blanks_add, List.append_assoc]
    _ = pad alignment u w row := by rw [← hright, Nat.add_comm, hadd, pad]

/-- A box may be brought to a width in two steps. -/
theorem map_pad_widenTo {v w : Nat} (h : alignment.Suits b.width v) (hv : b.width ≤ v) (hvw : v < w) :
    (b.widenTo alignment v).map (pad alignment v w) = b.widenTo alignment w := by
  rcases Nat.eq_or_lt_of_le hv with rfl | hlt
  · rw [widenTo_width, widenTo_of_lt hvw]
  · rw [widenTo_of_lt hlt, widenTo_of_lt (Nat.lt_trans hlt hvw), List.map_map]
    refine List.map_congr_left fun row hrow => ?_
    exact pad_pad h (length_le_width hrow) hv (Nat.le_of_lt hvw)

/-- Boxes above one another are brought to a width as each of them is. -/
theorem widenTo_stack (ha : a ≠ []) (hb : b ≠ []) (h : alignment.Suits a.width b.width) {w : Nat}
    (hw : max a.width b.width ≤ w) :
    (a.stack alignment b).widenTo alignment w = a.widenTo alignment w ++ b.widenTo alignment w := by
  have hwidth : (a.stack alignment b).width = max a.width b.width := width_stack ha hb
  rcases Nat.eq_or_lt_of_le hw with rfl | hlt
  · rw [← hwidth, widenTo_width, hwidth]
    rfl
  · have hsuits : alignment.Suits b.width (max a.width b.width) := Nat.max_comm _ _ ▸ h.symm.max
    rw [widenTo_of_lt (hwidth ▸ hlt), hwidth, stack, List.map_append,
      map_pad_widenTo h.max (Nat.le_max_left _ _) hlt, map_pad_widenTo hsuits (Nat.le_max_right _ _) hlt]

theorem stack_assoc (ha : a ≠ []) (hb : b ≠ []) (hc : c ≠ []) (hab : alignment.Suits a.width b.width)
    (hbc : alignment.Suits b.width c.width) :
    (a.stack alignment b).stack alignment c = a.stack alignment (b.stack alignment c) := by
  have hwidth : (b.stack alignment c).width = max b.width c.width := width_stack hb hc
  have hw : max (max a.width b.width) c.width = max a.width (max b.width c.width) := Nat.max_assoc _ _ _
  generalize hcommon : max (max a.width b.width) c.width = w at hw
  calc (a.stack alignment b).stack alignment c
      = (a.stack alignment b).widenTo alignment w ++ c.widenTo alignment w := by
        rw [stack, width_stack ha hb, hcommon]
    _ = a.widenTo alignment w ++ b.widenTo alignment w ++ c.widenTo alignment w := by
        rw [widenTo_stack ha hb hab (by omega)]
    _ = a.widenTo alignment w ++ (b.stack alignment c).widenTo alignment w := by
        rw [widenTo_stack hb hc hbc (by omega), List.append_assoc]
    _ = a.stack alignment (b.stack alignment c) := by
        rw [hw, ← hwidth]
        rfl

/-! Boxes side by side. -/

theorem fill_append {x y : List Char} {u v : Nat} (h : x.length = u) : fill (u + v) (x ++ y) = x ++ fill v y := by
  rw [fill, fill, List.length_append, h, Nat.add_sub_add_left, List.append_assoc]

theorem fill_getD_blanks (w : Nat) (row? : Option (List Char)) :
    fill w (row?.getD (blanks w)) = fill w (row?.getD []) := by
  cases row? with
  | none => rw [Option.getD_none, Option.getD_none, fill_nil, fill_eq_self (Nat.le_of_eq (length_blanks w).symm)]
  | some row => rfl

/-- A row of boxes side by side, blank where they have none. -/
theorem getElem?_beside_getD (a b : Box) (i : Nat) :
    (a.beside b)[i]?.getD (blanks (a.width + b.width)) =
      fill a.width (a[i]?.getD []) ++ b[i]?.getD (blanks b.width) := by
  rw [getElem?_beside]
  split
  · rfl
  · next h =>
    rw [List.getElem?_eq_none (by omega : a.length ≤ i), List.getElem?_eq_none (by omega : b.length ≤ i)]
    simp only [Option.getD_none, fill_nil, blanks_add]

/-- A row of boxes side by side, filled up to their width. -/
theorem fill_getElem?_beside (a b : Box) (i : Nat) :
    fill (a.width + b.width) ((a.beside b)[i]?.getD []) =
      fill a.width (a[i]?.getD []) ++ fill b.width (b[i]?.getD []) := by
  have hleft : (fill a.width (a[i]?.getD [])).length = a.width := length_fill (length_getD_le_width a i)
  rw [← fill_getD_blanks, getElem?_beside_getD, fill_append hleft, fill_getD_blanks]

theorem beside_assoc (hb : b ≠ []) (hc : c ≠ []) : (a.beside b).beside c = a.beside (b.beside c) := by
  refine List.ext_getElem? fun i => ?_
  rw [getElem?_beside (a.beside b) c, getElem?_beside a (b.beside c), length_beside, length_beside, width_beside hb,
    width_beside hc, fill_getElem?_beside, getElem?_beside_getD, Nat.max_assoc, List.append_assoc]

end Box

/-- Three texts laid out by one operator make the same text from the left and from the right. Where their middles are
aligned, their widths are to be all odd or all even. -/
theorem LayoutOp.apply_assoc (op : LayoutOp) (a b c : String)
    (h : op = .aboveCentre → (Box.ofText a).width % 2 = (Box.ofText b).width % 2 ∧
      (Box.ofText b).width % 2 = (Box.ofText c).width % 2) :
    op.apply (op.apply a b) c = op.apply a (op.apply b c) := by
  have ha := (Box.isLines_ofText a).nonempty
  have hb := (Box.isLines_ofText b).nonempty
  have hc := (Box.isLines_ofText c).nonempty
  rw [apply_eq op (op.apply a b) c, apply_eq op a (op.apply b c), ofText_apply, ofText_apply]
  refine congrArg Box.toText ?_
  cases op with
  | beside => exact Box.beside_assoc hb hc
  | aboveLeft | aboveRight => exact Box.stack_assoc ha hb hc (fun h => by cases h) (fun h => by cases h)
  | aboveCentre => exact Box.stack_assoc ha hb hc (fun _ => (h rfl).1) (fun _ => (h rfl).2)

theorem LayoutOp.apply_assoc_odd :
    LayoutOp.aboveCentre.apply (LayoutOp.aboveCentre.apply "a\nb" "ccc") "ddddd" =
      LayoutOp.aboveCentre.apply "a\nb" (LayoutOp.aboveCentre.apply "ccc" "ddddd") :=
  apply_assoc .aboveCentre "a\nb" "ccc" "ddddd" fun _ => by decide

/-- Where one width is even and another odd, the middle of a box moves. -/
example :
    LayoutOp.aboveCentre.apply (LayoutOp.aboveCentre.apply "a" "bb") "ccc" ≠
      LayoutOp.aboveCentre.apply "a" (LayoutOp.aboveCentre.apply "bb" "ccc") := by
  decide

end DiceScript
