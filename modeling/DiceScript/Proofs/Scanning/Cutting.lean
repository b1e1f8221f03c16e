import DiceScript.Proofs.Scanning.Tokenisation
import Mathlib.Data.List.Induction
import Mathlib.Data.Set.Basic
import Mathlib.Order.Bounds.Defs

/-!
# Where a string literal is cut

The spellings of the layout operators overlap: `<|`, `||` and `|>` can all be read in `<||>`. A text is cut at the first
position where an operator can be read, and what is left behind this operator is cut in the same way. `IsCut` says so
of a list of pieces, index by index. Every text has exactly one such list, and it is the one that the scanner makes.
-/

namespace DiceScript

namespace LayoutOp

/-- The positions of a text at which an operator can be read. -/
def positions (cs : List Char) : Set Nat :=
  {k | ∃ op : LayoutOp, op.spelling <+: cs.drop k}

variable {a : Char} {cs : List Char} {k : Nat}

theorem succ_mem_positions_cons : k + 1 ∈ positions (a :: cs) ↔ k ∈ positions cs := Iff.rfl

theorem add_two_le_of_mem_positions (h : k ∈ positions cs) : k + 2 ≤ cs.length := by
  obtain ⟨op, hop⟩ := h
  have hlength := hop.length_le
  rw [op.length_spelling, List.length_drop] at hlength
  omega

theorem length_mem_positions (front : List Char) (op : LayoutOp) (rest : List Char) :
    front.length ∈ positions (front ++ op.spelling ++ rest) := by
  use op
  rw [List.append_assoc, List.drop_left]
  exact List.prefix_append _ _

theorem zero_mem_positions {b : Char} {op : LayoutOp} (h : ofChars? a b = some op) (rest : List Char) :
    0 ∈ positions (a :: b :: rest) := by
  use op
  rw [ofChars?_eq_some_iff.1 h]
  exact ⟨rest, rfl⟩

theorem mem_positions_append (h : k ∈ positions cs) (more : List Char) : k ∈ positions (cs ++ more) := by
  have hk := add_two_le_of_mem_positions h
  obtain ⟨op, hop⟩ := h
  use op
  rw [List.drop_append_of_le_length (by omega)]
  exact hop.trans (List.prefix_append _ _)

theorem positions_eq_empty_iff : positions cs = ∅ ↔ ∀ op : LayoutOp, ¬ op.spelling <:+: cs := by
  rw [Set.eq_empty_iff_forall_notMem]
  constructor
  · rintro h op ⟨front, rest, rfl⟩
    exact h _ (length_mem_positions front op rest)
  · rintro h k ⟨op, hop⟩
    exact h op (hop.isInfix.trans (List.drop_suffix k cs).isInfix)

/-- A text in front of the first operator has none. -/
theorem positions_eq_empty_of_isLeast {front rest : List Char} (h : IsLeast (positions (front ++ rest)) front.length) :
    positions front = ∅ := by
  rw [Set.eq_empty_iff_forall_notMem]
  intro k hk
  have hlength := add_two_le_of_mem_positions hk
  have hfirst := h.2 (mem_positions_append hk rest)
  omega

theorem isLeast_positions_cons_iff :
    IsLeast (positions (a :: cs)) (k + 1) ↔ 0 ∉ positions (a :: cs) ∧ IsLeast (positions cs) k := by
  constructor
  · rintro ⟨hk, hfirst⟩
    refine ⟨fun hzero => ?_, hk, fun j hj => ?_⟩
    · exact absurd (hfirst hzero) (by omega)
    · exact Nat.le_of_succ_le_succ (hfirst (succ_mem_positions_cons.2 hj))
  · rintro ⟨hzero, hk, hfirst⟩
    refine ⟨hk, fun j hj => ?_⟩
    cases j with
    | zero => exact absurd hj hzero
    | succ j => exact Nat.succ_le_succ (hfirst hj)

/-- A text has no operator, or it has a first one. -/
theorem positions_eq_empty_or_isLeast (cs : List Char) :
    positions cs = ∅ ∨ ∃ front rest, ∃ op : LayoutOp, cs = front ++ op.spelling ++ rest ∧
      IsLeast (positions cs) front.length := by
  induction cs with
  | nil =>
    left
    rw [Set.eq_empty_iff_forall_notMem]
    intro k hk
    exact absurd (add_two_le_of_mem_positions hk) (by simp)
  | cons a cs ih =>
    by_cases hzero : 0 ∈ positions (a :: cs)
    · obtain ⟨op, rest, hrest⟩ := hzero
      exact .inr ⟨[], rest, op, hrest.symm, ⟨op, rest, hrest⟩, fun k _ => Nat.zero_le k⟩
    · rcases ih with hnone | ⟨front, rest, op, rfl, hfirst⟩
      · left
        rw [Set.eq_empty_iff_forall_notMem] at hnone ⊢
        intro k hk
        cases k with
        | zero => exact hzero hk
        | succ k => exact hnone k hk
      · exact .inr ⟨a :: front, rest, op, rfl, isLeast_positions_cons_iff.2 ⟨hzero, hfirst⟩⟩

end LayoutOp

namespace Pieces

open LayoutOp (positions)

theorem ofText_of_plain {cs : List Char} (h : positions cs = ∅) : ofText cs = (cs, []) := by
  fun_induction ofText cs with
  | case1 => rfl
  | case2 a => rfl
  | case3 a b rest op spelt cut ih =>
    have hop := LayoutOp.zero_mem_positions spelt rest
    rw [h] at hop
    cases hop
  | case4 a b rest spelt cut ih =>
    have hrest : positions (b :: rest) = ∅ := by
      rw [Set.eq_empty_iff_forall_notMem] at h ⊢
      exact fun k hk => h (k + 1) hk
    have hcut : cut = (b :: rest, []) := ih hrest
    rw [hcut]

/-- A text is cut at its first operator, and then what is left behind it is. -/
theorem ofText_of_first {front rest : List Char} {op : LayoutOp}
    (h : IsLeast (positions (front ++ op.spelling ++ rest)) front.length) :
    ofText (front ++ op.spelling ++ rest) = (front, (op, (ofText rest).1) :: (ofText rest).2) := by
  induction front with
  | nil => cases op <;> rfl
  | cons a front ih =>
    simp only [List.cons_append, List.length_cons] at h ⊢
    obtain ⟨hzero, hfirst⟩ := LayoutOp.isLeast_positions_cons_iff.1 h
    have hcut := ih hfirst
    have hne : front ++ op.spelling ++ rest ≠ [] := by cases op <;> simp [LayoutOp.spelling]
    obtain ⟨b, tail, htail⟩ := List.exists_cons_of_ne_nil hne
    rw [htail] at hzero hcut ⊢
    have hspelt : LayoutOp.ofChars? a b = none := by
      rw [Option.eq_none_iff_forall_ne_some]
      intro op' hop'
      exact hzero (LayoutOp.zero_mem_positions hop' tail)
    rw [ofText, hspelt, hcut]

/-- The pieces of a text: texts without operators and operators in turn, and each operator is the first that can be read
in what is left of the text. -/
structure IsCut (text : String) (pieces : List String) : Prop where
  odd : pieces.length % 2 = 1
  join : String.join pieces = text
  operator : ∀ i piece, pieces[2 * i + 1]? = some piece → ∃ op : LayoutOp, piece = String.ofList op.spelling
  plain : ∀ i piece, pieces[2 * i]? = some piece → ∀ op : LayoutOp, ¬ op.spelling <:+: piece.toList
  first : ∀ i piece, pieces[2 * i]? = some piece → 2 * i + 1 < pieces.length →
    IsLeast (positions (String.join (pieces.drop (2 * i))).toList) piece.length

variable {text piece operator : String} {pieces : List String}

theorem isCut_singleton (h : positions text.toList = ∅) : IsCut text [text] where
  odd := rfl
  join := by simp
  operator i piece hpiece := by simp at hpiece
  plain i piece hpiece := by
    cases i with
    | zero =>
      cases hpiece
      exact LayoutOp.positions_eq_empty_iff.1 h
    | succ i => simp [Nat.mul_succ] at hpiece
  first i piece hpiece hlast := by
    rw [List.length_singleton] at hlast
    omega

theorem IsCut.singleton (h : IsCut text [piece]) : piece = text ∧ positions text.toList = ∅ := by
  have hjoin : piece = text := by simpa using h.join
  subst hjoin
  exact ⟨rfl, LayoutOp.positions_eq_empty_iff.2 (h.plain 0 piece rfl)⟩

theorem isCut_cons {op : LayoutOp} (hfirst : IsLeast (positions text.toList) piece.length)
    (htext : text = piece ++ String.ofList op.spelling ++ String.join pieces) (h : IsCut (String.join pieces) pieces) :
    IsCut text (piece :: String.ofList op.spelling :: pieces) := by
  have hjoin : String.join (piece :: String.ofList op.spelling :: pieces) = text := by
    rw [htext, String.join_cons, String.join_cons, String.append_assoc]
  have hplain : positions piece.toList = ∅ := by
    rw [htext, String.toList_append, String.toList_append, List.append_assoc, ← String.length_toList] at hfirst
    exact LayoutOp.positions_eq_empty_of_isLeast hfirst
  have hodd := h.odd
  -- The first two pieces apart, each index is that of a piece behind the operator.
  refine ⟨?_, hjoin, fun i part hpart => ?_, fun i part hpart => ?_, fun i part hpart hlast => ?_⟩
  · simp only [List.length_cons]
    omega
  · cases i with
    | zero => exact ⟨op, (Option.some.inj hpart).symm⟩
    | succ i => exact h.operator i part hpart
  · cases i with
    | zero =>
      cases hpart
      exact LayoutOp.positions_eq_empty_iff.1 hplain
    | succ i => exact h.plain i part hpart
  · cases i with
    | zero =>
      cases hpart
      rwa [Nat.mul_zero, List.drop_zero, hjoin]
    | succ i =>
      apply h.first i part hpart
      simp only [List.length_cons] at hlast
      omega

theorem IsCut.cons (h : IsCut text (piece :: operator :: pieces)) :
    ∃ op : LayoutOp, operator = String.ofList op.spelling ∧ text = piece ++ operator ++ String.join pieces ∧
      IsLeast (positions text.toList) piece.length ∧ IsCut (String.join pieces) pieces := by
  obtain ⟨op, hop⟩ := h.operator 0 operator rfl
  have hfirst := h.first 0 piece rfl (by simp)
  have hodd := h.odd
  simp only [List.length_cons] at hodd
  rw [List.drop_zero, h.join] at hfirst
  refine ⟨op, hop, ?_, hfirst, by omega, rfl, fun i => h.operator (i + 1), fun i => h.plain (i + 1), ?_⟩
  · rw [← h.join, String.join_cons, String.join_cons, String.append_assoc]
  · intro i part hpart hlast
    apply h.first (i + 1) part hpart
    simp only [List.length_cons]
    omega

theorem toList_ofText_of_plain (h : positions text.toList = ∅) : (ofText text.toList).toList = [text] := by
  rw [ofText_of_plain h, toList, String.ofList_toList]
  rfl

theorem toList_ofText_of_first {op : LayoutOp} {rest : String} (hfirst : IsLeast (positions text.toList) piece.length)
    (htext : text = piece ++ String.ofList op.spelling ++ rest) :
    (ofText text.toList).toList = piece :: String.ofList op.spelling :: (ofText rest.toList).toList := by
  rw [htext, String.toList_append, String.toList_append, String.toList_ofList] at hfirst ⊢
  rw [← String.length_toList] at hfirst
  rw [ofText_of_first hfirst, toList, String.ofList_toList]
  rfl

theorem isCut_ofText (text : String) : IsCut text (ofText text.toList).toList := by
  induction hlength : text.length using Nat.strong_induction_on generalizing text with
  | h n ih =>
    rcases LayoutOp.positions_eq_empty_or_isLeast text.toList with hplain | ⟨front, rest, op, htext, hfirst⟩
    · rw [toList_ofText_of_plain hplain]
      exact isCut_singleton hplain
    · have hjoined : text = String.ofList front ++ String.ofList op.spelling ++ String.ofList rest := by
        rw [← String.toList_inj, htext]
        simp
      have hshorter : (String.ofList rest).length < n := by
        rw [← hlength, hjoined]
        simp [op.length_spelling]
      have hrest := ih _ hshorter (String.ofList rest) rfl
      rw [← String.length_ofList (l := front)] at hfirst
      rw [toList_ofText_of_first hfirst hjoined]
      apply isCut_cons hfirst
      · rw [hrest.join, hjoined]
      · rwa [hrest.join]

/-- The scanner cuts a text into a list of pieces that has an odd length and makes up the text, in which every second
piece is an operator and no other piece holds one, and each operator stands at the first position where one can be read
in the text behind the operator before it. No other list is like this. -/
theorem cut_at_first_operators (text : String) (pieces : List String) :
    IsCut text pieces ↔ pieces = (ofText text.toList).toList := by
  constructor
  · intro h
    induction pieces using List.twoStepInduction generalizing text with
    | nil => cases h.odd
    | singleton piece =>
      obtain ⟨rfl, hplain⟩ := h.singleton
      rw [toList_ofText_of_plain hplain]
    | cons_cons piece operator pieces ih _ =>
      obtain ⟨op, rfl, htext, hfirst, hrest⟩ := h.cons
      rw [toList_ofText_of_first hfirst htext, ← ih _ hrest]
  · rintro rfl
    exact isCut_ofText text

-- The bars in the middle are not read as an operator, because the first operator takes one of them.
example : (ofText "<||>".toList).toList = ["", "<|", "", "|>", ""] := by decide

end Pieces

end DiceScript
