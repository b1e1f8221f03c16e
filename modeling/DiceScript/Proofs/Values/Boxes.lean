import DiceScript.Value.Box

/-!
# Boxes, row by row

What the layout operators do to a box, said of its rows: how long they are, what stands in them, and where the box ends.
A text and its lines are two ways to see one thing as long as no row holds a line break, so what is said of boxes is
said of texts.
-/

namespace DiceScript

namespace Text

theorem not_mem_of_mem_splitOn {a : Char} {cs line : List Char} (h : line ∈ cs.splitOn a) : a ∉ line := by
  induction cs generalizing line with
  | nil =>
    obtain rfl := List.mem_singleton.1 (List.splitOn_nil a ▸ h)
    exact List.not_mem_nil
  | cons c rest ih =>
    rw [List.splitOn_cons_eq_if_modifyHead] at h
    split at h
    · rcases List.mem_cons.1 h with rfl | h
      · exact List.not_mem_nil
      · exact ih h
    · next hc =>
      obtain ⟨first, others, hsplit⟩ := List.exists_cons_of_ne_nil (List.splitOn_ne_nil a rest)
      rw [hsplit] at h ih
      rcases List.mem_cons.1 h with rfl | h
      · rw [List.mem_cons, not_or]
        exact ⟨fun heq => hc (beq_iff_eq.2 heq.symm), ih List.mem_cons_self⟩
      · exact ih (List.mem_cons_of_mem _ h)

end Text

namespace Box

variable {a b : Box} {row : List Char} {w : Nat}

/-! The width of a box. -/

theorem width_le_iff : b.width ≤ w ↔ ∀ row ∈ b, row.length ≤ w := by
  have hfold (start : Nat) (b : Box) :
      b.foldl (fun w row => max w row.length) start ≤ w ↔ start ≤ w ∧ ∀ row ∈ b, row.length ≤ w := by
    induction b generalizing start with
    | nil => simp
    | cons row b ih => rw [List.foldl_cons, ih, Nat.max_le, List.forall_mem_cons, and_assoc]
  rw [width, hfold]
  exact and_iff_right (Nat.zero_le w)

theorem length_le_width (h : row ∈ b) : row.length ≤ b.width :=
  width_le_iff.1 (Nat.le_refl _) row h

/-- A box is as wide as a row that no other one exceeds. -/
theorem width_eq (hrows : ∀ row ∈ b, row.length ≤ w) (h : ∃ row ∈ b, row.length = w) : b.width = w := by
  obtain ⟨row, hrow, hlength⟩ := h
  exact Nat.le_antisymm (width_le_iff.2 hrows) (hlength ▸ length_le_width hrow)

theorem width_append (a b : Box) : width (a ++ b) = max a.width b.width := by
  have hle (w : Nat) : width (a ++ b) ≤ w ↔ max a.width b.width ≤ w := by
    rw [width_le_iff, List.forall_mem_append, Nat.max_le, width_le_iff, width_le_iff]
  exact Nat.le_antisymm ((hle _).2 (Nat.le_refl _)) ((hle _).1 (Nat.le_refl _))

theorem exists_length_eq_width (hb : b ≠ []) : ∃ row ∈ b, row.length = b.width := by
  induction b with
  | nil => exact absurd rfl hb
  | cons row b ih =>
    have hcons : width (row :: b) = max row.length (width b) := by
      rw [← List.singleton_append, width_append, show width [row] = row.length from Nat.zero_max _]
    by_cases hle : width b ≤ row.length
    · exact ⟨row, List.mem_cons_self, by rw [hcons, Nat.max_eq_left hle]⟩
    · have hne : b ≠ [] := by
        rintro rfl
        exact hle (Nat.zero_le _)
      obtain ⟨widest, hmem, hlength⟩ := ih hne
      exact ⟨widest, List.mem_cons_of_mem _ hmem, by rw [hcons, hlength]; omega⟩

/-! Rows with blanks around them. -/

@[simp] theorem length_blanks (n : Nat) : (blanks n).length = n :=
  List.length_replicate

theorem blanks_add (m n : Nat) : blanks (m + n) = blanks m ++ blanks n :=
  List.replicate_append_replicate.symm

@[simp] theorem fill_nil (w : Nat) : fill w [] = blanks w := by
  simp [fill]

theorem length_fill (h : row.length ≤ w) : (fill w row).length = w := by
  rw [fill, List.length_append, length_blanks]
  omega

theorem fill_eq_self (h : w ≤ row.length) : fill w row = row := by
  rw [fill, Nat.sub_eq_zero_of_le h]
  exact List.append_nil row

def pad (alignment : Alignment) (own target : Nat) (row : List Char) : List Char :=
  blanks (alignment.indent (target - own)) ++ fill own row ++
    blanks (target - own - alignment.indent (target - own))

theorem widen_eq_map (alignment : Alignment) (target : Nat) (b : Box) :
    b.widen alignment target = b.map (pad alignment b.width target) := rfl

theorem Alignment.indent_le (alignment : Alignment) (spare : Nat) : alignment.indent spare ≤ spare := by
  cases alignment with
  | left => exact Nat.zero_le spare
  | right => exact Nat.le_refl spare
  | centre => exact Nat.div_le_self spare 2

@[simp] theorem Alignment.indent_zero (alignment : Alignment) : alignment.indent 0 = 0 :=
  Nat.le_zero.1 (alignment.indent_le 0)

theorem length_pad (alignment : Alignment) {own target : Nat} (hrow : row.length ≤ own) (h : own ≤ target) :
    (pad alignment own target row).length = target := by
  have hindent := alignment.indent_le (target - own)
  rw [pad, List.length_append, List.length_append, length_blanks, length_fill hrow, length_blanks]
  omega

/-! Boxes of a common width. -/

section

variable {alignment : Alignment} {target : Nat}

theorem widenTo_of_lt (h : b.width < target) :
    b.widenTo alignment target = b.map (pad alignment b.width target) := by
  rw [widenTo, if_pos h, widen_eq_map]

theorem widenTo_width (alignment : Alignment) (b : Box) : b.widenTo alignment b.width = b :=
  if_neg (Nat.lt_irrefl _)

@[simp] theorem length_widenTo : (b.widenTo alignment target).length = b.length := by
  unfold widenTo
  split
  · exact List.length_map _
  · rfl

theorem width_widenTo (hb : b ≠ []) (h : b.width ≤ target) : (b.widenTo alignment target).width = target := by
  rcases Nat.eq_or_lt_of_le h with rfl | hlt
  · rw [widenTo_width]
  · have hlength {row : List Char} (hrow : row ∈ b) : (pad alignment b.width target row).length = target :=
      length_pad alignment (length_le_width hrow) h
    rw [widenTo_of_lt hlt]
    refine width_eq ?_ ?_
    · intro row hrow
      obtain ⟨inner, hinner, rfl⟩ := List.mem_map.1 hrow
      exact Nat.le_of_eq (hlength hinner)
    · obtain ⟨inner, hinner⟩ := List.exists_mem_of_ne_nil b hb
      exact ⟨_, List.mem_map_of_mem hinner, hlength hinner⟩

theorem length_stack (a b : Box) : (a.stack alignment b).length = a.length + b.length := by
  rw [stack, List.length_append, length_widenTo, length_widenTo]

theorem width_stack (ha : a ≠ []) (hb : b ≠ []) : (a.stack alignment b).width = max a.width b.width := by
  rw [stack, width_append, width_widenTo ha (Nat.le_max_left _ _), width_widenTo hb (Nat.le_max_right _ _),
    Nat.max_self]

end

/-! Boxes side by side. -/

/-- Each row of boxes side by side is made of a row of each, or of blanks where a box has no such row. -/
theorem getElem?_beside (a b : Box) (i : Nat) :
    (a.beside b)[i]? = if i < max a.length b.length then
      some (fill a.width (a[i]?.getD []) ++ b[i]?.getD (blanks b.width)) else none := by
  have hrows (lw rw : Nat) : (besideRows lw rw a b)[i]? = if i < max a.length b.length then
      some (fill lw (a[i]?.getD []) ++ b[i]?.getD (blanks rw)) else none := by
    fun_induction besideRows lw rw a b generalizing i with
    | case1 => simp
    | case2 r rs ih => cases i <;> simp [ih]
    | case3 l ls ih => cases i <;> simp [ih]
    | case4 l ls r rs ih => cases i <;> simp [ih]
  exact hrows a.width b.width

theorem length_beside (a b : Box) : (a.beside b).length = max a.length b.length := by
  have hle (n : Nat) : (a.beside b).length ≤ n ↔ max a.length b.length ≤ n := by
    rw [← List.getElem?_eq_none_iff, getElem?_beside]
    simp
  exact Nat.le_antisymm ((hle _).2 (Nat.le_refl _)) ((hle _).1 (Nat.le_refl _))

theorem exists_of_mem_beside (h : row ∈ a.beside b) :
    ∃ i : Nat, row = fill a.width (a[i]?.getD []) ++ b[i]?.getD (blanks b.width) := by
  obtain ⟨i, hi⟩ := List.mem_iff_getElem?.1 h
  rw [getElem?_beside] at hi
  split at hi
  · exact ⟨i, (Option.some.inj hi).symm⟩
  · cases hi

theorem length_getD_le_width (b : Box) (i : Nat) : (b[i]?.getD []).length ≤ b.width := by
  cases hrow : b[i]? with
  | none => exact Nat.zero_le _
  | some row => exact length_le_width (List.mem_of_getElem? hrow)

theorem width_beside (hb : b ≠ []) : (a.beside b).width = a.width + b.width := by
  have hleft (i : Nat) := length_fill (length_getD_le_width a i)
  refine width_eq (fun row hrow => ?_) ?_
  · obtain ⟨i, rfl⟩ := exists_of_mem_beside hrow
    rw [List.length_append, hleft]
    refine Nat.add_le_add_left ?_ _
    cases hi : b[i]? with
    | none => simp
    | some inner => exact length_le_width (List.mem_of_getElem? hi)
  · obtain ⟨inner, hmem, hlength⟩ := exists_length_eq_width hb
    obtain ⟨i, hi⟩ := List.mem_iff_getElem?.1 hmem
    have hlt : i < b.length := (List.getElem?_eq_some_iff.1 hi).1
    have hrow : (a.beside b)[i]? = some (fill a.width (a[i]?.getD []) ++ inner) := by
      rw [getElem?_beside, if_pos (by omega), hi, Option.getD_some]
    refine ⟨_, List.mem_of_getElem? hrow, ?_⟩
    rw [List.length_append, hleft, hlength]

/-! Texts as boxes. -/

/-- The lines of some text: at least one, and none with a line break in it. -/
structure IsLines (b : Box) : Prop where
  nonempty : b ≠ []
  unbroken : ∀ row ∈ b, '\n' ∉ row

theorem isLines_ofText (s : String) : IsLines (ofText s) :=
  ⟨List.splitOn_ne_nil _ _, fun _ h => Text.not_mem_of_mem_splitOn h⟩

theorem ofText_toText (h : IsLines b) : ofText (toText b) = b := by
  rw [ofText, toText, String.toList_ofList]
  exact List.splitOn_intercalate '\n' h.unbroken h.nonempty

theorem break_not_mem_blanks (n : Nat) : '\n' ∉ blanks n := by
  intro h
  exact absurd (List.eq_of_mem_replicate h) (by decide)

theorem break_not_mem_fill (h : '\n' ∉ row) : '\n' ∉ fill w row := by
  rw [fill, List.mem_append, not_or]
  exact ⟨h, break_not_mem_blanks _⟩

theorem break_not_mem_pad {alignment : Alignment} {own target : Nat} (h : '\n' ∉ row) :
    '\n' ∉ pad alignment own target row := by
  rw [pad, List.mem_append, List.mem_append, not_or, not_or]
  exact ⟨⟨break_not_mem_blanks _, break_not_mem_fill h⟩, break_not_mem_blanks _⟩

theorem IsLines.widenTo {alignment : Alignment} {target : Nat} (h : IsLines b) :
    IsLines (b.widenTo alignment target) := by
  unfold Box.widenTo
  split
  · rw [widen_eq_map]
    refine ⟨fun hnil => h.nonempty (List.map_eq_nil_iff.1 hnil), ?_⟩
    intro row hrow
    obtain ⟨inner, hinner, rfl⟩ := List.mem_map.1 hrow
    exact break_not_mem_pad (h.unbroken inner hinner)
  · exact h

theorem IsLines.stack {alignment : Alignment} (ha : IsLines a) (hb : IsLines b) :
    IsLines (a.stack alignment b) := by
  refine ⟨List.append_ne_nil_of_left_ne_nil ha.widenTo.nonempty _, ?_⟩
  rw [Box.stack, List.forall_mem_append]
  exact ⟨ha.widenTo.unbroken, hb.widenTo.unbroken⟩

theorem IsLines.beside (ha : IsLines a) (hb : IsLines b) : IsLines (a.beside b) := by
  refine ⟨?_, ?_⟩
  · have hlength := List.length_pos_iff.2 ha.nonempty
    rw [← List.length_pos_iff, length_beside]
    omega
  · intro row hrow
    obtain ⟨i, rfl⟩ := exists_of_mem_beside hrow
    rw [List.mem_append, not_or]
    refine ⟨break_not_mem_fill ?_, ?_⟩
    · cases hi : a[i]? with
      | none => exact List.not_mem_nil
      | some inner => exact ha.unbroken inner (List.mem_of_getElem? hi)
    · cases hi : b[i]? with
      | none => exact break_not_mem_blanks _
      | some inner => exact hb.unbroken inner (List.mem_of_getElem? hi)

end Box

namespace LayoutOp

def onBoxes : LayoutOp → Box → Box → Box
  | .beside, a, b => a.beside b
  | .aboveLeft, a, b => a.stack .left b
  | .aboveRight, a, b => a.stack .right b
  | .aboveCentre, a, b => a.stack .centre b

theorem apply_eq (op : LayoutOp) (left right : String) :
    op.apply left right = Box.toText (op.onBoxes (Box.ofText left) (Box.ofText right)) := by
  cases op <;> rfl

/-- The lines of a text laid out are the rows of the box laid out. -/
theorem ofText_apply (op : LayoutOp) (left right : String) :
    Box.ofText (op.apply left right) = op.onBoxes (Box.ofText left) (Box.ofText right) := by
  have hleft := Box.isLines_ofText left
  have hright := Box.isLines_ofText right
  rw [apply_eq, Box.ofText_toText]
  cases op with
  | beside => exact hleft.beside hright
  | aboveLeft | aboveRight | aboveCentre => exact hleft.stack hright

end LayoutOp

end DiceScript
