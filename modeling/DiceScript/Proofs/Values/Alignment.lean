import DiceScript.Proofs.Values.Boxes
import DiceScript.Value.Collection

/-!
# Rows with a straight right edge

Texts of one line each, stacked one by one with their right edges aligned, make a box that grows downwards and, with
every longer text, to the left, where all earlier rows then get more blanks. In the end each row has the blanks that
bring it to the width of the whole box, as if it had been known from the start.
-/

namespace DiceScript

namespace Box

variable {a b : Box} {row : List Char}

/-- The rows of a box with blanks in front of them, up to the width of the box. -/
def flushRight (b : Box) : Box :=
  b.map (List.leftpad b.width ' ')

theorem max?_lengths (hb : b ≠ []) : (b.map List.length).max? = some b.width := by
  rw [List.max?_eq_some_iff]
  refine ⟨?_, ?_⟩
  · obtain ⟨row, hrow, hlength⟩ := exists_length_eq_width hb
    exact List.mem_map.2 ⟨row, hrow, hlength⟩
  · intro n hn
    obtain ⟨row, hrow, rfl⟩ := List.mem_map.1 hn
    exact length_le_width hrow

@[simp] theorem flushRight_singleton (row : List Char) : flushRight [row] = [row] := by
  simp [flushRight, width, List.leftpad]

theorem width_flushRight (hb : b ≠ []) : b.flushRight.width = b.width := by
  have hlength {row : List Char} (hrow : row ∈ b) : (row.leftpad b.width ' ').length = b.width := by
    rw [List.length_leftpad, Nat.max_eq_left (length_le_width hrow)]
  refine width_eq ?_ ?_
  · intro padded hpadded
    obtain ⟨row, hrow, rfl⟩ := List.mem_map.1 hpadded
    exact Nat.le_of_eq (hlength hrow)
  · obtain ⟨row, hrow⟩ := List.exists_mem_of_ne_nil b hb
    exact ⟨_, List.mem_map_of_mem hrow, hlength hrow⟩

/-- A row that fills its box gets all further blanks in front. -/
theorem pad_right_leftpad {own target : Nat} (hrow : row.length ≤ own) (h : own ≤ target) :
    pad .right own target (row.leftpad own ' ') = row.leftpad target ' ' := by
  have hlength : (row.leftpad own ' ').length = own := by
    rw [List.length_leftpad, Nat.max_eq_left hrow]
  have hsum : target - row.length = target - own + (own - row.length) := by omega
  rw [pad, fill_eq_self (Nat.le_of_eq hlength.symm)]
  change blanks (target - own) ++ (blanks (own - row.length) ++ row) ++ blanks (target - own - (target - own)) =
    blanks (target - row.length) ++ row
  have hnone : blanks (target - own - (target - own)) = [] := by
    rw [Nat.sub_self]
    rfl
  rw [hnone, hsum, blanks_add, List.append_nil, List.append_assoc]

theorem widenTo_flushRight (hb : b ≠ []) {target : Nat} (h : b.width ≤ target) :
    b.flushRight.widenTo .right target = b.map (List.leftpad target ' ') := by
  have hwidth := width_flushRight hb
  rcases Nat.eq_or_lt_of_le h with rfl | hlt
  · have hself := widenTo_width .right b.flushRight
    rwa [hwidth] at hself
  · rw [widenTo_of_lt (hwidth ▸ hlt), hwidth, flushRight, List.map_map]
    refine List.map_congr_left fun row hrow => ?_
    exact pad_right_leftpad (length_le_width hrow) h

/-- What is stacked below moves the right edge of what is above, if it is wider, and nothing else. -/
theorem stack_flushRight (ha : a ≠ []) (hb : b ≠ []) :
    a.flushRight.stack .right b.flushRight = flushRight (a ++ b) := by
  rw [stack, width_flushRight ha, width_flushRight hb, widenTo_flushRight ha (Nat.le_max_left _ _),
    widenTo_flushRight hb (Nat.le_max_right _ _), flushRight, width_append, List.map_append]

theorem ofText_of_unbroken {s : String} (h : '\n' ∉ s.toList) : ofText s = [s.toList] := by
  have hlines : IsLines [s.toList] := by
    refine ⟨List.cons_ne_nil _ _, ?_⟩
    rw [List.forall_mem_singleton]
    exact h
  have htext : toText [s.toList] = s := by
    rw [toText, List.intercalate_singleton, String.ofList_toList]
  rw [← ofText_toText hlines, htext]

/-- The invariant of stacking texts one by one: what stands so far has a straight right edge. -/
theorem ofText_foldl_aboveRight {text : String} (hb : b ≠ []) (htext : ofText text = b.flushRight)
    {rest : List String} (hrest : ∀ s ∈ rest, '\n' ∉ s.toList) :
    ofText (rest.foldl LayoutOp.aboveRight.apply text) = flushRight (b ++ rest.map String.toList) := by
  induction rest generalizing text b with
  | nil =>
    rw [List.map_nil, List.append_nil]
    exact htext
  | cons s rest ih =>
    rw [List.forall_mem_cons] at hrest
    -- A text of one line is a box with a straight edge, so one more text is one more box below.
    have hrow : flushRight [s.toList] = [s.toList] := flushRight_singleton _
    have hstep : ofText (LayoutOp.aboveRight.apply text s) = flushRight (b ++ [s.toList]) := by
      rw [LayoutOp.ofText_apply, htext, ofText_of_unbroken hrest.1, ← stack_flushRight hb (List.cons_ne_nil _ _), hrow]
      rfl
    rw [List.foldl_cons, ih (List.append_ne_nil_of_left_ne_nil hb _) hstep hrest.2, List.append_assoc]
    rfl

end Box

namespace Collection

def isShown (ch : Char) : Bool :=
  ch.isDigit || ch == '-' || ch == ' '

theorem mem_number {n : Int} {ch : Char} (h : ch ∈ (toString n).toList) : ch.isDigit = true ∨ ch = '-' := by
  have hdigits {k : Nat} (h : ch ∈ k.repr.toList) : ch.isDigit = true := by
    rw [Nat.toList_repr] at h
    exact Nat.isDigit_of_mem_toDigits (by omega) (Nat.le_refl 10) h
  rw [Int.toString_eq_repr] at h
  cases n with
  | ofNat k => exact .inl (hdigits h)
  | negSucc k =>
    change ch ∈ ("-" ++ (k + 1).repr).toList at h
    rw [String.toList_append, List.mem_append] at h
    exact h.symm.imp hdigits List.mem_singleton.1

theorem isShown_of_mem_display {c : Collection} {ch : Char} (h : ch ∈ c.display.toList) : isShown ch = true := by
  rw [display, String.toList_intercalate, List.map_map] at h
  generalize c.sorted = ns at h
  have hnumber {n : Int} (h : ch ∈ (toString n).toList) : isShown ch = true := by
    rcases mem_number h with hdigit | rfl
    · rw [isShown, hdigit, Bool.true_or, Bool.true_or]
    · rfl
  induction ns with
  | nil => cases h
  | cons n ns ih =>
    cases ns with
    | nil =>
      rw [List.map_singleton, List.intercalate_singleton] at h
      exact hnumber h
    | cons k ns =>
      rw [List.map_cons, List.map_cons, List.intercalate_cons_cons, List.mem_append, List.mem_append] at h
      rcases h with (h | h) | h
      · exact hnumber h
      · rw [List.mem_singleton.1 h]
        rfl
      · exact ih h

/-- A collection is shown on one line. -/
theorem break_not_mem_display (c : Collection) : '\n' ∉ c.display.toList := by
  intro h
  exact absurd (isShown_of_mem_display h) (by decide)

end Collection

end DiceScript
